import Loom.Value.Basic

/-!
# Expressions

The trees that expression text denotes. A range `a..b` includes both ends.
-/

namespace Loom

/-- A number as written: no sign, and a float only with a decimal point. -/
inductive Number where
  | int (n : Nat)
  | float (x : Float)

def Number.toValue : Number → Value
  | int n => .int n
  | float x => .float x

inductive UnaryOp where
  | not | plus | minus
  deriving DecidableEq

inductive BinaryOp where
  | or | and | eq | ne | lt | le | gt | ge | add | sub | mul | div
  deriving DecidableEq

def UnaryOp.symbol : UnaryOp → String
  | not => "not"
  | plus => "+"
  | minus => "-"

def BinaryOp.symbol : BinaryOp → String
  | or => "or"
  | and => "and"
  | eq => "=="
  | ne => "!="
  | lt => "<"
  | le => "<="
  | gt => ">"
  | ge => ">="
  | add => "+"
  | sub => "-"
  | mul => "*"
  | div => "/"

inductive Expr where
  | number (n : Number)
  | text (s : String)
  | bool (b : Bool)
  | name (s : String)
  | unary (op : UnaryOp) (operand : Expr)
  | binary (op : BinaryOp) (left right : Expr)
  | range (first last : Expr)

namespace Expr

def toValue : Expr → Value
  | number n => .obj [("type", "Number"), ("value", n.toValue)]
  | text s => .obj [("type", "String"), ("value", s)]
  | bool b => .obj [("type", "Boolean"), ("value", b)]
  | name s => .obj [("type", "Identifier"), ("name", s)]
  | unary op e => .obj [("type", "Unary"), ("op", op.symbol), ("expr", e.toValue)]
  | binary op l r =>
    .obj [("type", "Binary"), ("op", op.symbol), ("left", l.toValue),
      ("right", r.toValue)]
  | range a b =>
    .obj [("type", "Range"), ("start", a.toValue), ("end", b.toValue),
      ("inclusive", true)]

end Expr

end Loom
