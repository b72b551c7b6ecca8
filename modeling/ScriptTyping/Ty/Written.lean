import ScriptTyping.Ty.Basic

/-!
Types as they are written in annotations and signatures: `int`, `Array<String>`, `T[]`,
`(int, int) -> long`. A text is cut into tokens, and the tokens are read by recursive descent.
-/

namespace ScriptTyping

inductive TypeTextError where
  | missingName
  | unclosedBracket
  | unclosedParams
  | unclosedArgs (head : String)
  | missingArrow
  | trailing (text : String)
  deriving DecidableEq, Repr

def TypeTextError.message : TypeTextError → String
  | missingName => "expected a type name"
  | unclosedBracket => "expected `]`"
  | unclosedParams => "expected `,` or `)` in function type"
  | unclosedArgs head => "expected `,` or `>` in arguments of `" ++ head ++ "`"
  | missingArrow => "expected `->` after function parameters"
  | trailing text => "unexpected trailing input in type `" ++ text ++ "`"

namespace TypeText

inductive Token where
  | name (name : String)
  | mark (char : Char)
  deriving DecidableEq, Repr

def isNameChar (char : Char) : Bool := char.isAlphanum || char == '_' || char == '.'

def isGap (char : Char) : Bool :=
  char == ' ' || char == '\t' || char == '\n' || char == '\x0c' || char == '\r'

def endName (reversed : List Char) (tokens : List Token) : List Token :=
  match reversed with
  | [] => tokens
  | _ => .name (String.ofList reversed.reverse) :: tokens

def tokensFrom (reversed : List Char) : List Char → List Token
  | [] => endName reversed []
  | char :: rest =>
    if isNameChar char then tokensFrom (char :: reversed) rest
    else if isGap char then endName reversed (tokensFrom [] rest)
    else endName reversed (.mark char :: tokensFrom [] rest)

def tokens (text : String) : List Token := tokensFrom [] text.toList

/-- What a plain name denotes: the first variable of that name, else a primitive or one of the
types with a name of its own, else a host type. -/
def denote (vars : List String) (name : String) : Ty :=
  match vars.findIdx? (· == name) with
  | some index => .var index
  | none =>
    match Prim.ofName? name with
    | some prim => .prim prim
    | none =>
      if name = "void" then .void
      else if name = "Object" then .object
      else if name = "dynamic" then .dynamic
      else .host name

def readArrays (ty : Ty) : List Token → Except TypeTextError (Ty × List Token)
  | .mark '[' :: .mark ']' :: rest => readArrays (.array ty) rest
  | .mark '[' :: _ => .error .unclosedBracket
  | rest => .ok (ty, rest)

mutual

def readTy (vars : List String) : Nat → List Token → Except TypeTextError (Ty × List Token)
  | 0, _ => .error .missingName
  | fuel + 1, .mark '(' :: .mark ')' :: rest => readResult vars fuel [] rest
  | fuel + 1, .mark '(' :: rest => do
    let (params, rest) ← readTys vars ')' .unclosedParams fuel rest
    readResult vars fuel params rest
  | fuel + 1, .name name :: .mark '<' :: rest => do
    let (args, rest) ← readTys vars '>' (.unclosedArgs name) fuel rest
    readArrays (.generic name args) rest
  | _ + 1, .name name :: rest => readArrays (denote vars name) rest
  | _ + 1, _ => .error .missingName

def readResult (vars : List String) :
    Nat → List Ty → List Token → Except TypeTextError (Ty × List Token)
  | 0, _, _ => .error .missingArrow
  | fuel + 1, params, .mark '-' :: .mark '>' :: rest => do
    let (result, rest) ← readTy vars fuel rest
    .ok (.fn params result, rest)
  | _ + 1, _, _ => .error .missingArrow

def readTys (vars : List String) (close : Char) (unclosed : TypeTextError) :
    Nat → List Token → Except TypeTextError (List Ty × List Token)
  | 0, _ => .error .missingName
  | fuel + 1, tokens => do
    let (ty, rest) ← readTy vars fuel tokens
    match rest with
    | .mark char :: rest =>
      if char = close then .ok ([ty], rest)
      else if char = ',' then do
        let (types, rest) ← readTys vars close unclosed fuel rest
        .ok (ty :: types, rest)
      else .error unclosed
    | _ => .error unclosed

end

end TypeText

/-- The type that a text denotes; names in `vars` are variables. No two readings in a row keep all
tokens, so twice as many steps as there are tokens are enough. -/
def Ty.ofText? (vars : List String) (text : String) : Except TypeTextError Ty :=
  let tokens := TypeText.tokens text
  match TypeText.readTy vars (2 * tokens.length + 2) tokens with
  | .error error => .error error
  | .ok (ty, []) => .ok ty
  | .ok (_, _ :: _) => .error (.trailing text)

end ScriptTyping
