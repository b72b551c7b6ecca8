import ScriptTyping.Proofs.Locality.Expression
import ScriptTyping.Proofs.Locality.Statement

/-!
A visit of a node depends only on what can be reached from the node, and changes only that and what
it adds; more visits than it needs make no difference.
-/

namespace ScriptTyping

open Check

variable {realm : Realm} {id : NodeId} {visit other : Visit}

namespace Rule

theorem unsupported_obeys (tag : Tag) (inside : realm.inside id) :
    Obeys realm Any (unsupported tag id) :=
  .bind (.spanOf inside) fun _ _ => .bindAny (.report _) fun _ => .pure trivial

theorem expression_agrees (alike : Alike realm visit other) (inside : realm.inside id) :
    Agrees realm Any (requiredOrFirst id .expr >>= visit) (requiredOrFirst id .expr >>= other) :=
  .bind (requiredOrFirst_obeys inside .expr) fun _ within => alike within

theorem ofTag_agrees (alike : Alike realm visit other) (inside : realm.inside id) (tag : Tag) :
    Agrees realm Any (ofTag visit id tag) (ofTag other id tag) := by
  cases tag with
  | source => exact statements_agrees alike inside
  | statementList => exact statementList_agrees alike inside
  | block => exact block_agrees alike inside
  | importDecl => exact importDecl_obeys inside
  | funcDecl => exact funcDecl_agrees alike inside
  | returnStmt => exact returnStmt_agrees alike inside
  | varDecl => exact varDecl_agrees alike inside
  | assign => exact assign_agrees alike inside
  | compound op => exact compoundAssign_agrees alike op inside
  | expression => exact expression_agrees alike inside
  | assertion => exact assertion_agrees alike inside
  | ifStmt => exact ifStmt_agrees alike inside
  | conditional => exact conditional_agrees alike inside
  | whileLoop => exact whileLoop_agrees alike inside
  | continueStmt => exact .pure trivial
  | breakStmt => exact .pure trivial
  | forLoop => exact forLoop_agrees alike inside
  | forEach => exact forEach_agrees alike inside
  | name => exact name_obeys inside
  | cast => exact cast_agrees alike inside
  | field => exact field_agrees alike inside
  | indexer => exact indexer_agrees alike inside
  | apply => exact apply_agrees alike inside
  | methodApply => exact methodApply_agrees alike inside
  | new => exact construct_agrees alike inside
  | array => exact array_agrees alike inside
  | set => exact set_agrees alike inside
  | dict => exact dict_agrees alike inside
  | interpolation => exact interpolation_agrees alike inside
  | conjunction => exact connective_agrees alike inside
  | disjunction => exact connective_agrees alike inside
  | negation => exact negation_agrees alike inside
  | instanceOf => exact instanceOf_agrees alike inside
  | binary op => exact binary_agrees alike op inside
  | unary op => exact unary_agrees alike op inside
  | nullValue => exact .pure trivial
  | trueValue => exact setConst_obeys inside _ _
  | falseValue => exact setConst_obeys inside _ _
  | integer => exact integer_obeys inside
  | long => exact long_obeys inside
  | float => exact double_obeys inside
  | double => exact double_obeys inside
  | text => exact text_obeys inside
  | string => exact string_obeys inside
  | character => exact character_obeys inside
  | error => exact .pure trivial
  | param => exact unsupported_obeys .param inside
  | list => exact unsupported_obeys .list inside
  | type => exact unsupported_obeys .type inside
  | upCast => exact unsupported_obeys .upCast inside
  | downCast => exact unsupported_obeys .downCast inside

end Rule

theorem visit_agrees {depth more : Nat} (enough : depth ≤ more) :
    Alike realm (ScriptTyping.visit depth) (ScriptTyping.visit more) := by
  induction depth generalizing more with
  -- with no visit left, the first run stops whatever the other does
  | zero => exact fun _ => ⟨fun _ _ _ => .deeper⟩
  | succ depth ih =>
      intro id inside
      obtain ⟨rest, rfl⟩ := Nat.exists_eq_add_of_lt enough
      have shorter : depth ≤ depth + rest := Nat.le_add_right _ _
      refine .bindAny (.read fun _ _ pairs => ⟨pairs.trees.get inside, trivial⟩) fun node => ?_
      split
      · exact .pure trivial
      · refine .bind (Rule.ofTag_agrees (ih shorter) inside node.tag) fun ty _ => ?_
        refine .bind (setType_obeys inside ty) fun _ _ => ?_
        exact .bindAny (.noteTyped id) fun _ => .pure trivial

end ScriptTyping
