import Loom.Value.Access

/-!
# Stack Code

Modules compiled to the code of a stack machine. An expression leaves its value on
the stack; a step leaves the stack as it found it. A choice tests its first
condition and jumps over the steps it guards if it fails. Jumps go to places in
the whole code, so the code of a step depends on where it stands.
-/

namespace Loom.Machine

open Loom.Text

inductive Comparison where
  | eq | ne | gt | ge | lt | le
  deriving DecidableEq

def Comparison.name : Comparison → String
  | eq => "EQ"
  | ne => "NE"
  | gt => "GT"
  | ge => "GE"
  | lt => "LT"
  | le => "LE"

def Comparison.ofSign (sign : String) : Comparison :=
  match sign with
  | "!=" => ne
  | ">" => gt
  | ">=" => ge
  | "<" => lt
  | "<=" => le
  | _ => eq

inductive Instruction where
  | push (v : Value)
  | load (name : Value)
  | store (name : Value)
  | negate
  | compare (c : Comparison)
  | display
  | ret
  | jumpIfFalse (target : Nat)

abbrev Code := List Instruction

def Instruction.parts : Instruction → String × Value
  | push v => ("PUSH_CONST", v)
  | load name => ("LOAD", name)
  | store name => ("STORE", name)
  | negate => ("NOT", .null)
  | compare c => (c.name, .null)
  | display => ("SHOW", .null)
  | ret => ("RET", .null)
  | jumpIfFalse target => ("JMP_IF_FALSE", .int target)

def Instruction.toValue (i : Instruction) : Value :=
  .list [.str i.parts.1, i.parts.2]

def Instruction.show (i : Instruction) : String :=
  "(" ++ quoted i.parts.1 ++ ", " ++ i.parts.2.inner ++ ")"

/-- The code of an object as an expression, given its fields and the codes of their
    values. -/
def fieldsCode (fs : Fields Value) (codes : Fields (Except Error Code)) : Except Error Code :=
  let field (name : String) : Value := fs.getD name .null
  let code (name : String) (absent : Value) : Except Error Code :=
    if (field name).truthy then codes.getD name (.ok []) else .ok [.push absent]
  let type := field "type"
  if type.isText "String" then .ok [.push (fs.getD "value" "")]
  else if type.isText "Number" then .ok [.push (fs.getD "value" (.int 0))]
  else if type.isText "Identifier" then .ok [.load (fs.getD "name" "")]
  else if type.isText "Unary" then do
    let operand ← code "expr" ""
    pure (if (field "op").isText "NOT" then operand ++ [.negate] else operand)
  else if type.isText "Binary" then do
    let op ← ((field "op").orElse "").toText "upper"
    let left ← code "left" (.int 0)
    let right ← code "right" (.int 0)
    pure (left ++ right ++ [.compare (.ofSign (upper op))])
  else .ok [.push (.str (Value.obj fs).display)]

mutual

def exprCode : Value → Except Error Code
  | .obj fs => fieldsCode fs (fieldCodes fs)
  | v => .error (.noMember v.kind.name "get")

def fieldCodes : List (String × Value) → Fields (Except Error Code)
  | [] => []
  | (k, v) :: rest => (k, exprCode v) :: fieldCodes rest

end

def argOf (step : Value) (name : String) (absent : Value) : Except Error Value := do
  (step.fieldD "args" (.obj [])).lookupD name absent

def emptyText : Value := .obj [("type", "String"), ("value", "")]

def whenBranch? : List Value → Except Error (Option Value)
  | [] => .ok none
  | b :: rest => do if ← b.hasMember "when" then pure (some b) else whenBranch? rest

def otherwiseBranch? : List Value → Except Error (Option Value)
  | [] => .ok none
  | b :: rest => do
    if (← b.lookup "otherwise").truthy then pure (some b) else otherwiseBranch? rest

def choiceCode (inner : Nat → Value → Except Error Code) (place : Nat) (step : Value) :
    Except Error Code := do
  let branches ← (← argOf step "branches" (.list [])).items
  let guarded ← whenBranch? branches
  let otherwise ← otherwiseBranch? branches
  match guarded with
  | none => pure []
  | some b =>
    let test ← exprCode (← b.require "when")
    let body := place + test.length + 1
    let taken ← inner body (b.fieldD "steps" (.list []))
    let code := test ++ .jumpIfFalse (body + taken.length) :: taken
    match otherwise with
    | none => pure code
    | some o => pure (code ++ (← inner (body + taken.length) (o.fieldD "steps" (.list []))))

def stepCode (inner : Nat → Value → Except Error Code) (place : Nat) (step : Value) :
    Except Error Code := do
  let verb := upper (← ((← step.lookup "verb").orElse "").toText "upper")
  match verb with
  | "MAKE" =>
    let name ← argOf step "var" ""
    let code ← exprCode (← argOf step "expr" emptyText)
    pure (code ++ [.store name])
  | "RETURN" =>
    let code ← exprCode (← argOf step "expr" emptyText)
    pure (code ++ [.ret])
  | "SHOW" =>
    let text ← argOf step "text" ""
    pure [.push (.str text.display), .display]
  | "CHOOSE" => choiceCode inner place step
  | verb => pure [.push (.str ("[uncompiled verb: " ++ verb ++ "]")), .display]

def listCode (inner : Nat → Value → Except Error Code) (place : Nat) :
    List Value → Except Error Code
  | [] => .ok []
  | s :: rest => do
    let first ← stepCode inner place s
    pure (first ++ (← listCode inner (place + first.length) rest))

def stepItems (steps : Value) : Except Error (List Value) :=
  match steps with
  | .obj [] => .ok []
  | .obj _ => .error (.noField "0")
  | .list xs => .ok xs
  | .str s => (Value.str s).items
  | v => .error (.noLength v.kind)

/-- The code of steps at a place, with choices nested to a given depth. -/
def stepsCode : Nat → Nat → Value → Except Error Code
  | 0, _, _ => .error .tooDeep
  | depth + 1, place, steps => do listCode (stepsCode depth) place (← stepItems steps)

/-- Choices nest no deeper than the module itself. -/
def moduleCode (m : Value) : Except Error Code := do
  stepsCode (m.depth + 1) 0 (← m.lookupD "flow" (.list []))

end Loom.Machine
