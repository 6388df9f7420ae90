import Loom.Value.Access

/-!
# Sorts of Expressions

What can be told about an expression without running it: the sort of its value,
the names it reads, and its text.
-/

namespace Loom.Check

open Loom.Text

inductive ExprSort where
  | boolean | number | text | range | unknown
  deriving DecidableEq

def ExprSort.name : ExprSort → String
  | boolean => "Boolean"
  | number => "Number"
  | text => "Text"
  | range => "Range"
  | unknown => "Unknown"

def arithmeticSort (left right : ExprSort) : ExprSort :=
  if left == .number && right == .number then .number else .unknown

def binarySort (op : Value) (left right : ExprSort) : ExprSort :=
  if op.isOneOf ["and", "or", "<", "<=", ">", ">=", "==", "!="] then .boolean
  else if op.isText "+" then
    if left == .text || right == .text then .text else arithmeticSort left right
  else if op.isOneOf ["-", "*", "/", "%"] then arithmeticSort left right
  else .unknown

def unarySort (op : Value) (operand : ExprSort) : ExprSort :=
  if op.isText "not" then .boolean
  else if op.isOneOf ["+", "-"] && operand == .number then .number
  else .unknown

def fieldsSort (fs : Fields Value) (sorts : Fields ExprSort) : ExprSort :=
  let field (name : String) : Value := fs.getD name .null
  let sort (name : String) : ExprSort := sorts.getD name .unknown
  let type := field "type"
  if type.isText "Boolean" then .boolean
  else if type.isText "Number" then .number
  else if type.isText "String" then .text
  else if type.isText "Range" then .range
  else if type.isText "Unary" then unarySort (field "op") (sort "expr")
  else if type.isText "Binary" then binarySort (field "op") (sort "left") (sort "right")
  else .unknown

mutual

def sortOf : Value → ExprSort
  | .obj fs => fieldsSort fs (fieldSorts fs)
  | _ => .unknown

def fieldSorts : List (String × Value) → Fields ExprSort
  | [] => []
  | (k, v) :: rest => (k, sortOf v) :: fieldSorts rest

end

def isNameExpr (fs : Fields Value) : Bool :=
  (fs.getD "type" .null).isText "Identifier"

mutual

def namesIn : Value → List String
  | .obj fs =>
    if isNameExpr fs then ((Fields.getD fs "name" .null).str?).toList else namesInFields fs
  | .list xs => namesInList xs
  | _ => []

def namesInList : List Value → List String
  | [] => []
  | v :: rest => namesIn v ++ namesInList rest

def namesInFields : List (String × Value) → List String
  | [] => []
  | (_, v) :: rest => namesIn v ++ namesInFields rest

end

/-- The text of an object as an expression, given its fields and the texts of their
    values. A name that is no text stands for itself. -/
def fieldsText (fs : Fields Value) (texts : Fields (Except Error Value)) : Except Error Value :=
  let field (name : String) : Value := fs.getD name .null
  let text (name : String) : Except Error String :=
    (texts.getD name (.ok "\x7b\x7d")).map Value.display
  let type := field "type"
  if type.isText "Identifier" then .ok (fs.getD "name" "<id>")
  else if type.isOneOf ["Number", "String", "Boolean"] then .ok (.str (field "value").inner)
  else if type.isText "Unary" then do
    pure (.str ("(" ++ (field "op").display ++ " " ++ (← text "expr") ++ ")"))
  else if type.isText "Binary" then do
    let left ← text "left"
    pure (.str ("(" ++ left ++ " " ++ (field "op").display ++ " " ++ (← text "right") ++ ")"))
  else if type.isText "Range" then do
    let first ← text "start"
    let between := if (field "inclusive").truthy then " .. " else " ..< "
    pure (.str ("[" ++ first ++ between ++ (← text "end") ++ "]"))
  else .ok (.str (Value.obj fs).display)

mutual

/-- An expression as text. Only objects are expressions. -/
def textOf : Value → Except Error Value
  | .obj fs => fieldsText fs (fieldTexts fs)
  | v => .error (.noMember v.kind.name "get")

def fieldTexts : List (String × Value) → Fields (Except Error Value)
  | [] => []
  | (k, v) :: rest => (k, textOf v) :: fieldTexts rest

end

/-!
### Checking Modules

A module is checked before it runs. What must fail is an error; what may fail is a
warning: a name that may not be bound, a condition whose sort cannot be told.
Steps are looked at in order, and a name counts as bound from the step that binds
it on, also after the block that holds the step.
-/

structure Findings where
  errors : List String := []
  warnings : List String := []
  bound : List String := []

namespace Findings

def error (f : Findings) (text : String) : Findings :=
  { f with errors := f.errors ++ [text] }

def warn (f : Findings) (text : String) : Findings :=
  { f with warnings := f.warnings ++ [text] }

def bind (f : Findings) (name : Value) : Findings :=
  match name with
  | .str s => if s.isEmpty then f else { f with bound := s :: f.bound }
  | _ => f

def checkNames (f : Findings) (names : List String) (warning : String → String) : Findings :=
  (names.filter fun n => !f.bound.contains n).foldl (fun f n => f.warn (warning n)) f

def toValue (f : Findings) : Value :=
  .obj [("errors", .list (f.errors.map .str)), ("warnings", .list (f.warnings.map .str))]

end Findings

/-- A side of `and` or `or` that is no boolean. -/
def sideWarning (place side : String) (sort : ExprSort) : List String :=
  if sort == .boolean || sort == .unknown then []
  else [place ++ ": 'and/or' expects booleans (" ++ side ++ " is " ++ sort.name ++ ")"]

/-- What an object does with booleans, its own operator first. -/
def booleanWarnings (place : String) (fs : Fields Value) : List String :=
  let field (name : String) : Value := fs.getD name .null
  if (field "type").isText "Binary" && (field "op").isOneOf ["and", "or"] then
    sideWarning place "left" (sortOf (field "left")) ++
      sideWarning place "right" (sortOf (field "right"))
  else []

mutual

/-- The uses of `and` and `or` inside an expression. Lists are not looked into. -/
def booleanUses (place : String) : Value → List String
  | .obj fs => booleanWarnings place fs ++ booleanUsesIn place fs
  | _ => []

def booleanUsesIn (place : String) : List (String × Value) → List String
  | [] => []
  | (_, v) :: rest => booleanUses place v ++ booleanUsesIn place rest

end

def undefinedWarning (place name : String) : String :=
  place ++ ": identifier '" ++ name ++ "' may be undefined"

def checkMake (f : Findings) (place : String) (args : Value) : Except Error Findings := do
  let name ← args.lookup "name"
  pure ((f.bind name).checkNames (namesIn (args.field "expr")) (undefinedWarning place))

def checkReturn (f : Findings) (place : String) (args : Value) : Except Error Findings := do
  let e ← args.lookup "expr"
  let f := (booleanUses place e).foldl Findings.warn f
  pure (f.checkNames (namesIn e) (undefinedWarning place))

def checkRange (f : Findings) (place : String) (range : Value) : Findings :=
  if (range.field "type").isText "Range" then
    let first := sortOf (range.field "start")
    let last := sortOf (range.field "end")
    let isBad (s : ExprSort) : Bool := s == .text || s == .range
    if isBad first || isBad last then
      f.error (place ++ ": Repeat range endpoints must be numeric (got " ++ first.name ++ ", " ++
        last.name ++ ")")
    else f
  else f

def checkRepeat (inner : Findings → Value → Except Error Findings) (f : Findings) (place : String)
    (step args : Value) : Except Error Findings := do
  let f := checkRange f place (← args.lookup "iterable")
  let iterator := args.field "iterator"
  let f := if (iterator.field "type").isText "Identifier" then f.bind (iterator.field "name") else f
  inner f (step.field "steps")

def checkCondition (f : Findings) (place : String) (condition : Value) :
    Except Error Findings := do
  match sortOf condition with
  | .boolean => pure f
  | .unknown =>
    pure (f.warn (place ++ ": 'when' should be boolean (static type unknown) — expr=" ++
      (← textOf condition).display))
  | sort =>
    pure (f.error (place ++ ": 'when' must be boolean (got " ++ sort.name ++ ") — expr=" ++
      (← textOf condition).display))

def checkBranches (inner : Findings → Value → Except Error Findings) (place : String)
    (f : Findings) : List Value → Except Error Findings
  | [] => .ok f
  | b :: rest => do
    let f ← if (← b.lookup "otherwise").truthy then pure f
      else checkCondition f place (b.field "when")
    checkBranches inner place (← inner f (b.field "steps")) rest

def checkChoose (inner : Findings → Value → Except Error Findings) (f : Findings) (place : String)
    (args : Value) : Except Error Findings := do
  if !args.isObj then pure f
  else checkBranches inner place f (← ((args.field "branches").orElse (.list [])).items)

def checkCall (f : Findings) (place : String) (args : Value) : Except Error Findings := do
  let f := f.bind (← args.lookup "result")
  match (args.field "inputs").orElse (.obj []) with
  | .obj inputs =>
    pure (inputs.foldl (fun f (k, v) =>
      if v.isObj then
        f.checkNames (namesIn v) fun name => place ++ ": call input '" ++ k ++ "' references '" ++
          name ++ "' which may be undefined"
      else f) f)
  | v => throw (.noMember v.kind.name "items")

def checkStep (inner : Findings → Value → Except Error Findings) (f : Findings) (number : Nat)
    (step : Value) : Except Error Findings := do
  let verb := (← step.lookup "verb").orElse ""
  let args := (step.field "args").orElse (.obj [])
  let place := "step " ++ Decimal.showInt number ++ " (" ++ verb.display ++ ")"
  match verb with
  | .str "Ask" => pure (f.bind (← args.lookup "name"))
  | .str "Make" => checkMake f place args
  | .str "Return" => checkReturn f place args
  | .str "Repeat" => checkRepeat inner f place step args
  | .str "Choose" => checkChoose inner f place args
  | .str "Call" => checkCall f place args
  | _ => pure (f.checkNames (namesIn args) (undefinedWarning place))

def checkList (inner : Findings → Value → Except Error Findings) (number : Nat) (f : Findings) :
    List Value → Except Error Findings
  | [] => .ok f
  | s :: rest => do checkList inner (number + 1) (← checkStep inner f number s) rest

def checkSteps : Nat → Findings → Value → Except Error Findings
  | 0, _, _ => .error .tooDeep
  | depth + 1, f, steps => do
    checkList (checkSteps depth) 1 f (← (steps.orElse (.list [])).items)

/-- Steps nest no deeper than the module itself. -/
def checkModule (m : Value) : Except Error Findings := do
  checkSteps (m.depth + 1) {} (← m.lookupD "flow" (.list []))

def requireSound (m : Value) : Except Error Unit := do
  let f ← checkModule m
  if !f.errors.isEmpty then throw (.run (.verification f.errors))

end Loom.Check
