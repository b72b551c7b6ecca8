import ScriptTyping.Syntax.Tree
import ScriptTyping.Json.Reader
import ScriptTyping.Json.Printer
import ScriptTyping.Number.Shortest

/-!
Trees as JSON: what a tree is loaded from, and the dump of a tree with what checking found.
-/

namespace ScriptTyping

/-! ### Loading -/

inductive StoredNode where
  | mk (label : Option Label) (tag : Tag) (text : Option String) (span : Span)
    (children : List StoredNode)
  deriving Repr

namespace Json

/-- The name of a choice without further data: a string, or an object whose only member is null,
where another level of brackets is allowed. -/
def choice? (room : Nat) : Json → Option String
  | string name => some name
  | object [(name, null)] => if room = 0 then none else some name
  | _ => none

def span? (room : Nat) (json : Json) : Option Span :=
  if room = 0 then none
  else
    match json.record? .refused ["start", "end"] with
    | some [some start, some stop] => do
      let start ← start.word? 32
      let stop ← stop.word? 32
      some ⟨start, stop⟩
    | _ => none

def tag? (room : Nat) (json : Json) : Option Tag := (json.choice? room).bind Tag.ofTitle?

def label? (room : Nat) (json : Json) : Option Label := (json.choice? room).bind Label.ofKey?

end Json

def optionalField {α : Type} (read : Json → Option α) : Option Json → Option (Option α)
  | none => some none
  | some json => json.nullable read

namespace StoredNode

def ofJson? : Nat → Json → Option StoredNode
  | 0, _ => none
  | room + 1, json =>
    match json.record? .refused ["tag", "label", "text", "span", "children"] with
    | some [some tag, label, text, span, children] => do
      let tag ← tag.tag? room
      let label ← optionalField (·.label? room) label
      let text ← optionalField (·.string?) text
      let span ← optionalField (·.span? room) span
      let children ← match room, children with
        | _, none => some []
        | 0, some _ => none
        | inner + 1, some children => children.items?.bind (·.mapM (ofJson? inner))
      some (.mk label tag text (span.getD .nowhere) children)
    | _ => none

def label : StoredNode → Option Label
  | mk label _ _ _ _ => label

end StoredNode

namespace Tree

mutual

def load (tree : Tree) : StoredNode → NodeId × Tree
  | .mk _ tag text span children =>
    let (id, tree) := tree.alloc { tag, span, text }
    (id, tree.loadChildren id children)

def loadChildren (tree : Tree) (parent : NodeId) : List StoredNode → Tree
  | [] => tree
  | stored :: rest =>
    let (id, tree) := tree.load stored
    (tree.pushChild parent stored.label id).loadChildren parent rest

end

def ofStored (source : Option String) (stored : StoredNode) : Tree :=
  let (root, tree) := ({ source } : Tree).load stored
  tree.setRoot root

def maxDepth : Nat := 127

def ofJson? (json : Json) : Option Tree :=
  match json.record? .refused ["source", "root"] with
  | some [source, some root] => do
    let source ← optionalField (·.string?) source
    let stored ← StoredNode.ofJson? (maxDepth - 1) root
    some (ofStored source stored)
  | _ => none

def ofText? (text : String) : Option Tree := (Json.ofText? text).bind ofJson?

end Tree

/-! ### Dumping -/

def Prim.title : Prim → String
  | bool => "Bool"
  | byte => "Byte"
  | short => "Short"
  | char => "Char"
  | int => "Int"
  | long => "Long"
  | float => "Float"
  | double => "Double"

namespace Json

def optionalMember (name : String) : Option Json → List (String × Json)
  | none => []
  | some json => [(name, json)]

def ofName (tyName : TyName) : Json :=
  object [("Con", object (("name", string tyName.name) ::
    optionalMember "namespace" (tyName.home.map string)))]

mutual

def ofTy : Ty → Json
  | .var index => object [("Var", integer index)]
  | .prim prim => object [("Prim", string prim.title)]
  | .named tyName => ofName tyName
  | .applied head args => object [("App", array [ofName head, array (ofTys args)])]
  | .fn params result => object [("Fun", array [array (ofTys params), ofTy result])]
  | .void => string "Void"
  | .object => string "Object"
  | .dynamic => string "Dynamic"
  | .never => string "Never"

def ofTys : List Ty → List Json
  | [] => []
  | ty :: rest => ofTy ty :: ofTys rest

end

def ofBinary64 (number : Binary64) : Json := if number.isFinite then decimal number.text else null

def ofConst : Const → Json
  | .bool value => object [("Bool", bool value)]
  | .int value => object [("Int", integer value)]
  | .long value => object [("Long", integer value)]
  | .double value => object [("Double", ofBinary64 value)]
  | .char value => object [("Char", string (String.singleton value))]
  | .string value => object [("String", string value)]

def ofAccess : Access → Json
  | .get => string "Get"
  | .set => string "Set"

def ofFieldTarget : FieldTarget → Json
  | .member id => object [("Member", integer id)]
  | .global id => object [("Global", integer id)]

end Json

def Hint.title : Hint → String
  | apply => "Apply"
  | methodApply => "MethodApply"
  | staticInvocation => "StaticInvocation"
  | dynamicInvocation => "DynamicInvocation"
  | recursiveApply => "RecursiveApply"
  | unique => "Unique"

namespace Json

def ofInvokeTarget : InvokeTarget → Json
  | .member id => object [("Member", integer id)]
  | .selfCall name => object [("SelfCall", string name)]
  | .functionValue => string "FunctionValue"

def ofTypeArgs (types : List Ty) : Json :=
  array (types.zipIdx.map fun (ty, index) => array [integer index, ofTy ty])

def ofBinding : Binding → Json
  | .unbound => string "None"
  | .field access target =>
    object [("Field", object [("access", ofAccess access), ("target", ofFieldTarget target)])]
  | .invoke hint target typeArgs =>
    object [("Invoke", object [("hint", string hint.title), ("target", ofInvokeTarget target),
      ("type_args", ofTypeArgs typeArgs)])]
  | .construct construction =>
    object [("Constructor", object [("owner", ofTy construction.owner),
      ("constructor", integer construction.constructor),
      ("params", array (ofTys construction.params)),
      ("type_args", ofTypeArgs construction.typeArgs)])]
  | .const value => object [("Const", ofConst value)]

def ofSpan (span : Span) : Json :=
  object [("start", integer span.start), ("end", integer span.stop)]

mutual

def ofBranch : Branch → Json
  | .mk label _ node children =>
    object ([("tag", string node.tag.title)] ++
      optionalMember "label" (label.map fun label => string label.key) ++
      optionalMember "text" (node.text.map string) ++
      [("span", ofSpan node.span)] ++
      optionalMember "ty" (node.ty.map fun ty => string ty.text) ++
      [("binding", ofBinding node.binding)] ++
      match children with
      | [] => []
      | _ => [("children", array (ofBranches children))])

def ofBranches : List Branch → List Json
  | [] => []
  | branch :: rest => ofBranch branch :: ofBranches rest

end

end Json

namespace Tree

def toJson? (tree : Tree) : Option Json := tree.root.map fun root => .ofBranch (tree.below root)

end Tree

end ScriptTyping
