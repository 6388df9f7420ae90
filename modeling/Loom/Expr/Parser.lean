import Loom.Expr.Token

/-!
# Parsing Expressions

Tokens as a tree, by binding power. An operator takes the expression on its left
if it binds at least as tightly as what surrounds it asks. Its right side asks
for more than its own power, so that operators of one power group to the left;
the range sign asks for its own power only, so ranges group to the right.
Prefix operators bind tightest.

The sign after an expression in parentheses closes them, whichever sign it is.
-/

namespace Loom.Expr

/-- What an infix token makes of its two sides. -/
inductive Joint where
  | operator (op : BinaryOp)
  | range

def joint? : Token → Option (Joint × Nat)
  | .keyword .or => some (.operator .or, 10)
  | .keyword .and => some (.operator .and, 20)
  | .sign .eq => some (.operator .eq, 30)
  | .sign .ne => some (.operator .ne, 30)
  | .sign .lt => some (.operator .lt, 40)
  | .sign .le => some (.operator .le, 40)
  | .sign .gt => some (.operator .gt, 40)
  | .sign .ge => some (.operator .ge, 40)
  | .sign .dots => some (.range, 45)
  | .sign .add => some (.operator .add, 50)
  | .sign .sub => some (.operator .sub, 50)
  | .sign .mul => some (.operator .mul, 60)
  | .sign .div => some (.operator .div, 60)
  | _ => none

/-- What the right side of an infix operator asks for. -/
def Joint.rightPower (i : Joint) (power : Nat) : Nat :=
  match i with
  | operator _ => power + 1
  | range => power

def Joint.join (i : Joint) (left right : Expr) : Expr :=
  match i with
  | operator op => .binary op left right
  | range => .range left right

def prefixPower : Nat := 100

def unaryOp? : Token → Option UnaryOp
  | .keyword .not => some .not
  | .sign .add => some .plus
  | .sign .sub => some .minus
  | _ => none

mutual

/-- An expression whose operators bind at least as tightly as `power`, and the
    tokens after it. -/
def parsePower : Nat → Nat → List Token → Except Problem (Expr × List Token)
  | 0, _, _ => .error (.unexpected .done)
  | fuel + 1, power, ts => do
    let (left, rest) ← parseOperand fuel ts
    parseJoints fuel power left rest

/-- An expression up to its first infix operator. -/
def parseOperand : Nat → List Token → Except Problem (Expr × List Token)
  | 0, _ => .error (.unexpected .done)
  | _ + 1, [] => .error (.unexpected .done)
  | fuel + 1, t :: ts =>
    match t with
    | .number n => .ok (.number n, ts)
    | .text s => .ok (.text s, ts)
    | .keyword .true => .ok (.bool true, ts)
    | .keyword .false => .ok (.bool false, ts)
    | .name s => .ok (.name s, ts)
    | .sign .opening => do
      let (e, rest) ← parsePower fuel 0 ts
      match rest with
      | .sign _ :: after => pure (e, after)
      | found :: _ => throw (.signExpected found)
      | [] => throw (.signExpected .done)
    | _ =>
      match unaryOp? t with
      | some op => do
        let (e, rest) ← parsePower fuel prefixPower ts
        pure (.unary op e, rest)
      | none => .error (.unexpected t)

/-- Go on from a left side with the infix operators that bind at least as
    tightly as `power`. -/
def parseJoints : Nat → Nat → Expr → List Token → Except Problem (Expr × List Token)
  | 0, _, left, ts => .ok (left, ts)
  | _ + 1, _, left, [] => .ok (left, [])
  | fuel + 1, power, left, t :: ts =>
    match joint? t with
    | some (i, own) =>
      if own < power then .ok (left, t :: ts)
      else do
        let (right, rest) ← parsePower fuel (i.rightPower own) ts
        parseJoints fuel power (i.join left right) rest
    | none => .ok (left, t :: ts)

end

/-- Each call either takes a token or is the last before one that does, so three
    calls per token suffice. -/
def parseTokens (ts : List Token) : Except Problem Expr := do
  let (e, rest) ← parsePower (3 * ts.length + 3) 0 ts
  if rest.isEmpty then pure e else throw .trailing

def parse (s : String) : Except Problem Expr := do
  parseTokens (← tokens s)

/-!
### Nesting of Expressions

An expression opens another one at a parenthesis, after a prefix operator and to the
right of an infix operator. Those that are open at once are kept in mind until they
close, and there is a limit to their number.
-/

/-- How many expressions are open at once while tokens are read, up to the first that
    does not fit. `powers` holds what the open expressions ask of their operators,
    innermost first; an expression in parentheses asks for nothing. -/
def nestingFrom (wantsOperand : Bool) (powers : List Nat) : List Token → Nat
  | [] => powers.length
  | t :: ts =>
    max powers.length <|
      if wantsOperand then
        match t with
        | .number _ | .text _ | .name _ | .keyword .true | .keyword .false =>
          nestingFrom false powers ts
        | .sign .opening => nestingFrom true (0 :: powers) ts
        | t =>
          if (unaryOp? t).isSome then nestingFrom true (prefixPower :: powers) ts else 0
      else
        match joint? t with
        | some (i, own) => nestingFrom true (i.rightPower own :: powers.dropWhile (own < ·)) ts
        | none =>
          match t, powers.dropWhile (0 < ·) with
          | .sign _, _ :: outer => nestingFrom false outer ts
          | _, _ => 0

def nestingLimit : Nat := 494

def read (s : String) : Except Problem Expr := do
  let ts ← tokens s
  if nestingFrom true [] ts > nestingLimit then throw .tooDeep else parseTokens ts

end Loom.Expr
