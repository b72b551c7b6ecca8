import ScriptTyping.Ty.Operand

/-!
The kinds of syntax nodes and the labels of their children.
-/

namespace ScriptTyping

inductive BinaryOp where
  | add
  | sub
  | mul
  | div
  | mod
  | equals
  | notEquals
  | lessThan
  | lessThanEquals
  | greaterThan
  | greaterThanEquals
  | leftShift
  | rightShift
  | logicalRightShift
  | bitwiseAnd
  | bitwiseOr
  | bitwiseXor
  deriving DecidableEq, Repr

namespace BinaryOp

def all : List BinaryOp :=
  [add, sub, mul, div, mod, equals, notEquals, lessThan, lessThanEquals, greaterThan,
    greaterThanEquals, leftShift, rightShift, logicalRightShift, bitwiseAnd, bitwiseOr, bitwiseXor]

theorem mem_all (op : BinaryOp) : op ∈ all := by cases op <;> decide

def name : BinaryOp → String
  | add => "Add"
  | sub => "Sub"
  | mul => "Mul"
  | div => "Div"
  | mod => "Mod"
  | equals => "Equals"
  | notEquals => "NotEquals"
  | lessThan => "LessThan"
  | lessThanEquals => "LessThanEquals"
  | greaterThan => "GreaterThan"
  | greaterThanEquals => "GreaterThanEquals"
  | leftShift => "LeftShift"
  | rightShift => "RightShift"
  | logicalRightShift => "LogicalRightShift"
  | bitwiseAnd => "BitwiseAnd"
  | bitwiseOr => "BitwiseOr"
  | bitwiseXor => "BitwiseXor"

def memberName (op : BinaryOp) : String := "op" ++ op.name

def operatorClass : BinaryOp → OperatorClass
  | add => .additive
  | sub => .additive
  | mul => .additive
  | div => .additive
  | mod => .additive
  | equals => .equator
  | notEquals => .equator
  | lessThan => .comparator
  | lessThanEquals => .comparator
  | greaterThan => .comparator
  | greaterThanEquals => .comparator
  | leftShift => .bitwise
  | rightShift => .bitwise
  | logicalRightShift => .bitwise
  | bitwiseAnd => .bitwise
  | bitwiseOr => .bitwise
  | bitwiseXor => .bitwise

def hasAssignment (op : BinaryOp) : Bool :=
  op.operatorClass == .additive || op.operatorClass == .bitwise

end BinaryOp

abbrev CompoundOp := { op : BinaryOp // op.hasAssignment = true }

def CompoundOp.all : List CompoundOp :=
  BinaryOp.all.filterMap fun op => if h : op.hasAssignment = true then some ⟨op, h⟩ else none

theorem CompoundOp.mem_all (op : CompoundOp) : op ∈ CompoundOp.all := by
  obtain ⟨op, assignable⟩ := op
  exact List.mem_filterMap.mpr ⟨op, op.mem_all, by simp [assignable]⟩

inductive UnaryOp where
  | plus
  | minus
  | compl
  deriving DecidableEq, Repr

namespace UnaryOp

def all : List UnaryOp := [plus, minus, compl]

theorem mem_all (op : UnaryOp) : op ∈ all := by cases op <;> decide

def name : UnaryOp → String
  | plus => "Plus"
  | minus => "Minus"
  | compl => "Compl"

def memberName (op : UnaryOp) : String := "op" ++ op.name

end UnaryOp

/-- The kinds of nodes: those that the grammar produces, and those that only checking produces
(`upCast`, `downCast`, `error`). -/
inductive Tag where
  | source
  | importDecl
  | funcDecl
  | param
  | returnStmt
  | block
  | statementList
  | list
  | assertion
  | ifStmt
  | conditional
  | whileLoop
  | continueStmt
  | breakStmt
  | forLoop
  | forEach
  | varDecl
  | expression
  | name
  | type
  | assign
  | compound (op : CompoundOp)
  | cast
  | upCast
  | downCast
  | field
  | indexer
  | apply
  | methodApply
  | new
  | array
  | set
  | dict
  | conjunction
  | disjunction
  | negation
  | instanceOf
  | binary (op : BinaryOp)
  | unary (op : UnaryOp)
  | nullValue
  | trueValue
  | falseValue
  | integer
  | long
  | float
  | double
  | text
  | string
  | character
  | interpolation
  | error
  deriving DecidableEq, Repr

namespace Tag

def plain : List Tag :=
  [source, importDecl, funcDecl, param, returnStmt, block, statementList, list, assertion, ifStmt,
    conditional, whileLoop, continueStmt, breakStmt, forLoop, forEach, varDecl, expression, name,
    type, assign, cast, upCast, downCast, field, indexer, apply, methodApply, new, array, set, dict,
    conjunction, disjunction, negation, instanceOf, nullValue, trueValue, falseValue, integer, long,
    float, double, text, string, character, interpolation, error]

def all : List Tag :=
  plain ++ CompoundOp.all.map compound ++ BinaryOp.all.map binary ++ UnaryOp.all.map unary

def title : Tag → String
  | source => "Source"
  | importDecl => "Import"
  | funcDecl => "FuncDecl"
  | param => "Param"
  | returnStmt => "Return"
  | block => "Block"
  | statementList => "StatementList"
  | list => "List"
  | assertion => "Assert"
  | ifStmt => "If"
  | conditional => "Conditional"
  | whileLoop => "While"
  | continueStmt => "Continue"
  | breakStmt => "Break"
  | forLoop => "For"
  | forEach => "ForEach"
  | varDecl => "VarDecl"
  | expression => "Expression"
  | name => "Name"
  | type => "Type"
  | assign => "Assign"
  | compound op => "Assign" ++ op.val.name
  | cast => "Cast"
  | upCast => "UpCast"
  | downCast => "DownCast"
  | field => "Field"
  | indexer => "Indexer"
  | apply => "Apply"
  | methodApply => "MethodApply"
  | new => "New"
  | array => "Array"
  | set => "Set"
  | dict => "Dict"
  | conjunction => "And"
  | disjunction => "Or"
  | negation => "Not"
  | instanceOf => "Instanceof"
  | binary op => op.name
  | unary op => op.name
  | nullValue => "Null"
  | trueValue => "True"
  | falseValue => "False"
  | integer => "Integer"
  | long => "Long"
  | float => "Float"
  | double => "Double"
  | text => "Text"
  | string => "String"
  | character => "Character"
  | interpolation => "Interpolation"
  | error => "Error"

def ofTitle? (title : String) : Option Tag := all.find? (·.title == title)

theorem mem_all (tag : Tag) : tag ∈ all := by
  cases tag with
  | compound op => simp [all, CompoundOp.mem_all op]
  | binary op => simp [all, BinaryOp.mem_all op]
  | unary op => simp [all, UnaryOp.mem_all op]
  | _ => decide

end Tag

inductive Label where
  | recv
  | param
  | left
  | right
  | cond
  | thenBranch
  | elseBranch
  | body
  | name
  | type
  | expr
  | init
  | iter
  | msg
  | lead
  deriving DecidableEq, Repr

namespace Label

def all : List Label :=
  [recv, param, left, right, cond, thenBranch, elseBranch, body, name, type, expr, init, iter, msg,
    lead]

def key : Label → String
  | recv => "recv"
  | param => "param"
  | left => "left"
  | right => "right"
  | cond => "cond"
  | thenBranch => "then"
  | elseBranch => "else"
  | body => "body"
  | name => "name"
  | type => "type"
  | expr => "expr"
  | init => "init"
  | iter => "iter"
  | msg => "msg"
  | lead => "prefix"

def title : Label → String
  | recv => "Recv"
  | param => "Param"
  | left => "Left"
  | right => "Right"
  | cond => "Cond"
  | thenBranch => "Then"
  | elseBranch => "Else"
  | body => "Body"
  | name => "Name"
  | type => "Type"
  | expr => "Expr"
  | init => "Init"
  | iter => "Iter"
  | msg => "Msg"
  | lead => "Prefix"

def ofKey? (key : String) : Option Label := all.find? (·.key == key)

end Label

end ScriptTyping
