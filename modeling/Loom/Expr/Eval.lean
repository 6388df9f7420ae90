import Loom.Value.Access
import Loom.Value.Arith

/-!
# Evaluating Expressions

An expression in a document is an object with a type; anything else stands for
itself. `Node` is an expression as found there, with whatever its fields hold,
so that a document is understood first and evaluated afterwards.

A name that is not bound is null. `and` and `or` take booleans only and look at
their right side only if the left one leaves the result open.
-/

namespace Loom

/-- Variables and their values, in the order in which they were first bound. -/
abbrev Env := Fields Value

namespace Expr

inductive Node where
  /-- A value that stands for itself. -/
  | itself (v : Value)
  | name (key : Value)
  /-- A value that counts as a boolean. -/
  | truth (v : Value)
  | binary (op : Value) (left right : Node)
  | unary (op : Value) (operand : Node)

namespace Node

def ofFields (fs : Fields Value) (nodes : Fields Node) : Node :=
  let field (name : String) : Value := fs.getD name .null
  let node (name : String) : Node := nodes.getD name (.itself .null)
  let type := field "type"
  if type.isText "Identifier" then .name (field "name")
  else if type.isText "String" then .itself (fs.getD "value" "")
  else if type.isText "Number" then .itself (fs.getD "value" (.int 0))
  else if type.isOneOf ["Bool", "Boolean"] then .truth (field "value")
  else if type.isOneOf ["Binary", "BinaryExpr"] then
    .binary (field "op") (node "left") (node "right")
  else if type.isOneOf ["Unary", "UnaryExpr"] then
    .unary (field "op") (if (field "expr").truthy then node "expr" else node "value")
  else .itself (.obj fs)

mutual

def ofValue : Value → Node
  | .obj fs => ofFields fs (ofFieldValues fs)
  | v => .itself v

def ofFieldValues : List (String × Value) → Fields Node
  | [] => []
  | (k, v) :: rest => (k, ofValue v) :: ofFieldValues rest

end

def applyBinary (op : Value) (l r : Value) : Except Error Value :=
  if op.isText "+" then l.add r
  else if op.isText "-" then l.sub r
  else if op.isText "*" then l.mul r
  else if op.isText "/" then l.div r
  else if op.isOneOf ["==", "equals"] then .ok (.bool (l.same r))
  else if op.isOneOf ["!=", "notEquals"] then .ok (.bool (!l.same r))
  else if op.isOneOf ["<", "lt"] then (Value.compareBy .lt l r).map .bool
  else if op.isOneOf ["<=", "lte"] then (Value.compareBy .le l r).map .bool
  else if op.isOneOf [">", "gt"] then (Value.compareBy .gt l r).map .bool
  else if op.isOneOf [">=", "gte"] then (Value.compareBy .ge l r).map .bool
  else .error (.run (.unsupportedBinary op))

def applyUnary (op : Value) (v : Value) : Except Error Value :=
  if op.isOneOf ["-", "neg"] then
    match v.negate? with
    | some w => .ok w
    | none => .error (.run (.signOperand "-"))
  else if op.isText "+" then
    match v.plus? with
    | some w => .ok w
    | none => .error (.run (.signOperand "+"))
  else if op.isOneOf ["not", "!"] then .ok (.bool (!v.truthy))
  else .error (.run (.unsupportedUnary op))

def boolean (op : String) : Value → Except Error Bool
  | .bool b => .ok b
  | _ => .error (.run (.booleanOperands op))

/-- A name is looked up; what cannot be a name is a fault, and other values name
    nothing. -/
def lookupName (env : Env) (key : Value) : Except Error Value := do
  match ← key.toName with
  | some n => pure (env.getD n .null)
  | none => pure .null

def eval (env : Env) : Node → Except Error Value
  | itself v => .ok v
  | name key => lookupName env key
  | truth v => .ok (.bool v.truthy)
  | binary op l r =>
    if op.isOneOf ["and", "&&"] then do
      let a ← boolean "and" (← eval env l)
      if a then
        let b ← boolean "and" (← eval env r)
        pure (.bool b)
      else pure (.bool false)
    else if op.isOneOf ["or", "||"] then do
      let a ← boolean "or" (← eval env l)
      if a then pure (.bool true)
      else
        let b ← boolean "or" (← eval env r)
        pure (.bool b)
    else do
      let a ← eval env l
      let b ← eval env r
      applyBinary op a b
  | unary op e => do
    let v ← eval env e
    applyUnary op v

/-- How many operators stand one inside the other, the innermost operand included. -/
def depth : Node → Nat
  | binary _ l r => max l.depth r.depth + 1
  | unary _ e => e.depth + 1
  | _ => 1

end Node

/-- Expressions of a larger depth are not evaluated. -/
def depthLimit : Nat := 990

def eval (env : Env) (v : Value) : Except Error Value :=
  let node := Node.ofValue v
  if node.depth > depthLimit then .error .tooDeep else node.eval env

end Expr

end Loom
