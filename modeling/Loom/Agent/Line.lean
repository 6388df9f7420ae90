import Loom.Agent.Section
import Loom.Value.Access

/-!
# Comparatives

Conditions in plain words, such as "the score is at least 90": a name, a
comparison and a value. A word that opens a condition, courtesies and closing
marks do not count.
-/

namespace Loom.Agent

open Loom.Text Loom.Text.Pattern

structure Comparative where
  left : String
  op : String
  right : Value

def Comparative.toValue (c : Comparative) : Value :=
  .list [.str c.left, .str c.op, c.right]

def dottedName : Pattern :=
  one (fun c => isLetterLike c || c == '_') ++
    many fun c => isLetterLike c || ('0' ≤ c && c ≤ '9') || c == '_' || c == '.'

/-- Digits, and more of them after a point. -/
def plainNumber : Pattern :=
  many1 isDigit ++ optional (chr '.' ++ many1 isDigit)

def quotedOperand : Pattern :=
  oneOf [chr '\'' ++ many (· != '\'') ++ chr '\'', chr '"' ++ many (· != '"') ++ chr '"']

def operand : Pattern :=
  oneOf [plainNumber, quotedOperand, dottedName]

def readNumber (s : String) : Except Error Value :=
  if s.contains '.' then
    match Decimal.readFloat? s with
    | some x => .ok (.float x)
    | none => .error (.badFloat (.str s))
  else
    match Decimal.readInt? s with
    | some i => .ok (.int i)
    | none => .error (.longNumeral s.length)

def inside (s : String) : String :=
  String.ofList (s.toList.drop 1).dropLast

def isQuoted (s : String) : Bool :=
  (startsWith s "'" && endsWith s "'") || (startsWith s "\"" && endsWith s "\"")

def readOperand (s : String) : Except Error Value :=
  let s := strip s
  if (plainNumber.full? s).isSome then readNumber s
  else if isQuoted s then .ok (.str (inside s))
  else .ok (.str s)

def isClosingMark (c : Char) : Bool :=
  c == '.' || c == '!' || c == '?' || c == ',' || c == ';' || c == ':'

/-- A courtesy at the end of a phrase, with the marks around it. -/
def courtesy : Pattern :=
  gap ++ optional (one fun c => c == ',' || c == ';' || c == ':') ++ gap ++
    oneOf [word "please", word "thanks", word "thank" ++ chr ' ' ++ word "you"] ++
    gap ++ many isClosingMark ++ gap ++ finish

def closingMarks : Pattern :=
  gap ++ many1 isClosingMark ++ gap ++ finish

def dropCourtesy (phrase : String) : String :=
  closingMarks.replaceAll (fun _ => "") (courtesy.replaceAll (fun _ => "") (strip phrase))

/-- The words `is` or `are` before a comparison. -/
def copula : Pattern :=
  optional (oneOf [word "is" ++ space, word "are" ++ space])

def phrase : List String → Pattern
  | [] => nothing
  | [w] => word w
  | w :: ws => word w ++ space ++ phrase ws

def worded (ways : List Pattern) : Pattern :=
  named "left" dottedName ++ space ++ copula ++ oneOf ways ++ space ++
    named "right" operand ++ finish

def signed (sign : String) : Pattern :=
  named "left" dottedName ++ gap ++ text sign ++ gap ++ named "right" operand ++ finish

def comparisons : List (Pattern × String) :=
  [(worded [phrase ["at", "least"], phrase ["no", "less", "than"]], ">="),
    (worded [phrase ["at", "most"], phrase ["no", "more", "than"]], "<="),
    (worded [phrase ["greater", "than"], phrase ["more", "than"]], ">"),
    (worded [phrase ["less", "than"], phrase ["fewer", "than"]], "<"),
    (worded [phrase ["not", "equal", "to"], phrase ["is", "not"], phrase ["are", "not"]], "!="),
    (worded [word "equal" ++ optional (word "s"), phrase ["equal", "to"]], "=="),
    (named "left" dottedName ++ space ++ oneOf [word "is", word "are"] ++ space ++
      named "right" operand ++ finish, "=="),
    (signed ">=", ">="), (signed "<=", "<="), (signed ">", ">"), (signed "<", "<"),
    (signed "==", "=="), (signed "!=", "!=")]

def opener : Pattern :=
  start ++ oneOf [word "when", word "if", word "unless"] ++ space

def bareCondition (s : String) : String :=
  let s := opener.replaceAll (fun _ => "") (strip s)
  let s := if endsWith s ":" then String.ofList s.toList.dropLast else s
  dropCourtesy s

def readComparative (s : String) : Except Error (Option Comparative) := do
  let s := bareCondition s
  match comparisons.findSome? fun (p, op) => (p.match? s).map fun m => (m, op) with
  | some (m, op) => pure (some ⟨m.group "left", op, ← readOperand (m.group "right")⟩)
  | none => pure none

/-!
### Lines of an Agent

The lines of a flow as steps. A line may hold several actions, one after the
other, unless it is a condition. A condition returns a value and may be followed by
a line that returns another one otherwise. A line that says nothing we know is
shown.
-/

/-- A name in ASCII; dots join its parts. -/
def isName (s : String) : Bool :=
  match s.toList with
  | [] => false
  | c :: cs => (c.isAlpha || c == '_') && cs.all fun c => c.isAlphanum || c == '_' || c == '.'

def nameExpr (name : String) : Value :=
  .obj [("type", "Identifier"), ("name", name)]

def textExpr (s : String) : Value :=
  .obj [("type", "String"), ("value", s)]

/-- A quoted text, a number or a name. Any other text that speaks of a name means
    the variable of that name, and the rest stands for itself. -/
def readTerm (s : String) : Except Error Value :=
  let s := strip s
  if isQuoted s then .ok (textExpr (inside s))
  else if (plainNumber.full? s).isSome then do
    pure (.obj [("type", "Number"), ("value", ← readNumber s)])
  else if isName s then .ok (nameExpr s)
  else if contains (lower s) "name" then .ok (nameExpr "name")
  else .ok (textExpr s)

def conditionHead : Pattern :=
  gap ++ named "head" (oneOf [word "if", word "when", word "unless"])

def isCondition (line : String) : Bool :=
  (conditionHead ++ edge).fits line

def conditionLine : Pattern :=
  conditionHead ++ space ++ named "condition" (few1 onLine) ++ space ++ word "then" ++ space ++
    word "return" ++ space ++ named "value" (few1 onLine) ++ gap ++ finish

def noName : Pattern :=
  edge ++ word "no" ++ space ++ word "name" ++ edge

def nameOfCondition (condition : String) : String :=
  let kept := String.ofList (condition.toList.filter fun c => c.isAlphanum || c == '_' || c == '.')
  if kept.isEmpty then "cond" else kept

def equalsExpr (op : String) (left right : Value) : Value :=
  .obj [("type", "Binary"), ("op", op), ("left", left), ("right", right)]

/-- The comparison that a condition states. What cannot be read states none. -/
def comparativeOf? (comparatives : Bool) (head condition : String) : Option Comparative :=
  if comparatives then
    match readComparative (head ++ " " ++ condition) with
    | .ok c => c
    | .error _ => none
  else none

def predicateOf (comparatives : Bool) (head condition : String) : Except Error Value := do
  match comparativeOf? comparatives head condition with
  | some c => pure (equalsExpr c.op (nameExpr c.left) (← readTerm c.right.display))
  | none =>
    let plain :=
      if noName.occurs condition then equalsExpr "==" (nameExpr "name") (textExpr "")
      else nameExpr (nameOfCondition condition)
    if head == "unless" then
      pure (.obj [("type", "Unary"), ("op", "NOT"), ("expr", plain)])
    else pure plain

def readCondition (comparatives : Bool) (line : String) :
    Except Error (Option (Value × Value)) := do
  match conditionLine.match? line with
  | none => pure none
  | some m =>
    let predicate ← predicateOf comparatives (lower (m.group "head")) (strip (m.group "condition"))
    let value ← readTerm (strip (m.group "value"))
    pure (some (predicate, value))

def actionEnd : Pattern :=
  chr ',' ++ gap ++ optional (word "and" ++ space) ++ word "then" ++ space

def actionsOf (line : String) : List String :=
  let s := strip line
  if s.isEmpty then []
  else if isCondition s then [s]
  else ((actionEnd.split s).map strip).filter (!·.isEmpty)

def actions : List Value → Except Error (List String)
  | [] => .ok []
  | v :: rest => do
    let line ← v.toText "strip"
    pure (actionsOf line ++ (← actions rest))

def returnStep (expr : Value) : Value :=
  .obj [("verb", "Return"), ("args", .obj [("expr", expr)])]

def showStep (text : String) : Value :=
  .obj [("verb", "Show"), ("args", .obj [("text", text)])]

def makeLine : Pattern :=
  gap ++ word "make" ++ space ++
    named "name" (one (fun c => isLetterLike c || c == '_') ++
      many fun c => isLetterLike c || ('0' ≤ c && c ≤ '9') || c == '_') ++
    space ++ word "say" ++ space ++ named "value" (few1 onLine) ++ gap ++ finish

def returnLine : Pattern :=
  gap ++ word "return" ++ space ++ named "value" (few1 onLine) ++ gap ++ finish

def otherwiseLine : Pattern :=
  gap ++ word "otherwise" ++ space ++ word "return" ++ space ++
    named "value" (few1 onLine) ++ gap ++
    finish

def plainAction (line : String) : Except Error Value := do
  match makeLine.match? line, returnLine.match? line with
  | some m, _ =>
    pure (.obj [("verb", "Make"), ("args", .obj [("var", m.group "name"),
      ("expr", ← readTerm (m.group "value"))])])
  | none, some m => pure (returnStep (← readTerm (m.group "value")))
  | none, none => pure (showStep line)

def chooseStep (predicate value : Value) (otherwise : List Value) : Value :=
  let whenBranch : Value := .obj [("when", predicate), ("steps", .list [returnStep value])]
  let others : List Value :=
    if otherwise.isEmpty then [] else [.obj [("otherwise", true), ("steps", otherwise)]]
  .obj [("verb", "Choose"), ("args", .obj [("branches", whenBranch :: others)])]

def compileActions (comparatives : Bool) : List String → Except Error (List Value)
  | [] => .ok []
  | line :: rest =>
    if isCondition line then do
      match ← readCondition comparatives line with
      | none =>
        pure (showStep ("[unparsed condition] " ++ line) :: (← compileActions comparatives rest))
      | some (predicate, value) =>
        match rest with
        | [] => pure [chooseStep predicate value []]
        | next :: others =>
          match otherwiseLine.match? next with
          | some m =>
            let otherwise ← readTerm (m.group "value")
            pure (chooseStep predicate value [returnStep otherwise] ::
              (← compileActions comparatives others))
          | none =>
            pure (chooseStep predicate value [] :: (← compileActions comparatives (next :: others)))
    else do
      pure ((← plainAction line) :: (← compileActions comparatives rest))

def compileFlow (comparatives : Bool) (lines : List Value) : Except Error (List Value) := do
  compileActions comparatives (← actions lines)

def joinTexts (index : Nat) : List Value → Except Error (List String)
  | [] => .ok []
  | .str s :: rest => do pure (s :: (← joinTexts (index + 1) rest))
  | v :: _ => .error (.badJoin index v.kind)

def compileModule (comparatives : Bool) (m : Value) : Except Error Value := do
  let lines ← m.lookupD "flowLines" (.list [])
  let steps ← compileFlow comparatives (← lines.items)
  let name ← m.require "name"
  let purpose ← joinTexts 0 (← Value.joinable (m.fieldD "purposeAndIdentity" (.list [])))
  pure (.obj [("type", "Module"), ("name", name), ("purpose", join " " purpose),
    ("inputs", m.fieldD "inputs" (.list [])), ("outputs", m.fieldD "outputs" (.list [])),
    ("flow", steps), ("successCriteria", m.fieldD "successCriteria" (.list [])),
    ("version", m.fieldD "version" "1.0"),
    ("astVersion", m.fieldD "astVersion" "2.1.0"),
    ("examples", m.fieldD "examples" (.list []))])

def compileModules (comparatives : Bool) : List Value → Except Error (List Value)
  | [] => .ok []
  | m :: rest => do
    let first ← compileModule comparatives m
    pure (first :: (← compileModules comparatives rest))

end Loom.Agent
