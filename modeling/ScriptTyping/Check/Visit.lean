import ScriptTyping.Check.Constant
import ScriptTyping.Check.Operator
import ScriptTyping.Check.Access
import ScriptTyping.Check.Invocation
import ScriptTyping.Check.Cast
import ScriptTyping.Check.Collection
import ScriptTyping.Check.Control
import ScriptTyping.Check.Declaration
import ScriptTyping.Check.Assignment

/-!
The rule for each kind of node, and the visit that applies it and gives the node its type.
-/

namespace ScriptTyping

open Check

namespace Rule

def unsupported (tag : Tag) (id : NodeId) : Check Ty := do
  report ⟨.unsupportedConstruct tag, ← spanOf id⟩
  return .never

def ofTag (visit : Visit) (id : NodeId) : Tag → Check Ty
  | .source => statements visit id
  | .statementList => statementList visit id
  | .block => block visit id
  | .importDecl => importDecl id
  | .funcDecl => funcDecl visit id
  | .returnStmt => returnStmt visit id
  | .varDecl => varDecl visit id
  | .assign => assign visit id
  | .compound op => compoundAssign visit op id
  | .expression => do visit (← requiredOrFirst id .expr)
  | .assertion => assertion visit id
  | .ifStmt => ifStmt visit id
  | .conditional => conditional visit id
  | .whileLoop => whileLoop visit id
  | .continueStmt => return .void
  | .breakStmt => return .void
  | .forLoop => forLoop visit id
  | .forEach => forEach visit id
  | .name => name id
  | .cast => cast visit id
  | .field => field visit id
  | .indexer => indexer visit id
  | .apply => apply visit id
  | .methodApply => methodApply visit id
  | .new => construct visit id
  | .array => array visit id
  | .set => set visit id
  | .dict => dict visit id
  | .interpolation => interpolation visit id
  | .conjunction => connective visit id
  | .disjunction => connective visit id
  | .negation => negation visit id
  | .instanceOf => instanceOf visit id
  | .binary op => binary visit op id
  | .unary op => unary visit op id
  | .nullValue => return .object
  | .trueValue => truth id true
  | .falseValue => truth id false
  | .integer => integer id
  | .long => long id
  | .float => double id
  | .double => double id
  | .text => text id
  | .string => string id
  | .character => character id
  | .error => return .never
  | .param => unsupported .param id
  | .list => unsupported .list id
  | .type => unsupported .type id
  | .upCast => unsupported .upCast id
  | .downCast => unsupported .downCast id

end Rule

def visit : Nat → Visit
  | 0, _ => stop .tooDeep
  | depth + 1, id => do
    let node ← read (·.tree.get id)
    if node.done then return node.ty.getD .void
    else
      let ty ← Rule.ofTag (visit depth) id node.tag
      setType id ty
      noteTyped id
      return ty

/-- Enough visits for every tree whose nodes have one parent each: a path has no more nodes than
the tree, and only a compound assignment makes a path longer, by the operator. -/
def Tree.visitDepth (tree : Tree) : Nat := 2 * tree.nodes.size + 2

def checkRoot : Check (Option Ty) := do
  let tree ← tree
  match tree.root with
  | none => return none
  | some root =>
    match ← attempt (visit tree.visitDepth root) with
    | .ok ty => return some ty
    | .error failure => do
      modifyTree (·.setRoot failure.replacement)
      recordError failure.error
      return none

end ScriptTyping
