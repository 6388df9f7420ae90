import Loom.Value.Access

/-!
# Steps

A step of a module has a verb and arguments. Verbs have aliases, and arguments of
most verbs can be spelled in several ways; here a step is brought to the one
spelling that runs.
-/

namespace Loom

open Loom.Text

def verbAliases : Fields String :=
  [("make", "Make"), ("set", "Make"), ("let", "Make"), ("assign", "Make"), ("define", "Make"),
    ("show", "Show"), ("print", "Show"), ("log", "Show"), ("echo", "Show"),
    ("return", "Return"), ("yield", "Return"),
    ("ask", "Ask"), ("prompt", "Ask"), ("input", "Ask"),
    ("choose", "Choose"), ("if", "Choose"),
    ("repeat", "Repeat"), ("for", "Repeat"), ("foreach", "Repeat"), ("loop", "Repeat"),
    ("call", "Call"), ("invoke", "Call"), ("run", "Call"), ("use", "Call"),
    ("fetch", "Call"), ("query", "Call")]

def canonicalVerb (verb : String) : String :=
  verbAliases.getD (lower verb) verb

structure Step where
  verb : String
  args : Fields Value
  raw : String

namespace Step

/-- The first of the old names that is present, moved to a new one that is not. -/
def renameFirst (new : String) (old : List String) (args : Fields Value) : Fields Value :=
  if args.has new then args
  else
    match old.find? args.has with
    | some k => args.move k new
    | none => args

def blockOf (steps : Value) : Value :=
  .obj [("steps", steps)]

def makeArgs (args : Fields Value) : Fields Value :=
  renameFirst "expr" ["value", "to", "rhs", "with", "is", "equals"]
    (renameFirst "name" ["target", "var", "id", "key", "binding", "lhs"] args)

def showArgs (args : Fields Value) : Fields Value :=
  if args.has "expr" then args
  else
    match args.get? "text", args.get? "value" with
    | some v, _ => args.put "expr" v
    | none, some v => args.put "expr" v
    | none, none => args

def askArgs (args : Fields Value) : Fields Value :=
  let args := match args.get? "text", args.get? "prompt" with
    | none, some p => args.put "text" p
    | _, _ => args
  renameFirst "store" ["name", "var", "target", "lhs", "key"] args

/-- Branches may stand beside the arguments. -/
def chooseArgs (step : Value) (args : Fields Value) : Fields Value :=
  if !args.has "branches" && (step.field "branches").isList then
    args.put "branches" (step.field "branches")
  else args

def iteratorArgs (args : Fields Value) : Fields Value :=
  if args.has "iterator" then args
  else
    let args := args.move "iter" "iterator"
    if args.has "var" then args.move "var" "iterator" else args.move "it" "iterator"

/-- The block of a loop may stand under several names, beside the arguments too. -/
def blockArgs (step : Value) (args : Fields Value) : Fields Value :=
  let fill (wanted : Bool) (args : Fields Value) (other : Fields Value) : Fields Value :=
    if !args.has "block" && wanted then other else args
  let args := fill (!args.has "steps" && args.has "body") args
    ((args.erase "body").put "block" (blockOf (args.getD "body" .null)))
  let steps := args.getD "steps" .null
  let args := fill steps.isList args ((args.erase "steps").put "block" (blockOf steps))
  let block := step.field "block"
  let args := fill block.isObj args (args.put "block" (blockOf (block.fieldD "steps" (.list []))))
  let args := fill block.isList args (args.put "block" (blockOf block))
  fill (step.field "steps").isList args (args.put "block" (blockOf (step.field "steps")))

def repeatArgs (step : Value) (args : Fields Value) : Fields Value :=
  blockArgs step (renameFirst "iterable" ["in"] (iteratorArgs args))

def callArgs (args : Fields Value) : Fields Value :=
  renameFirst "module" ["target"] args

def canonicalArgs (verb : String) (step : Value) (args : Fields Value) : Fields Value :=
  match verb with
  | "Make" => makeArgs args
  | "Show" => showArgs args
  | "Ask" => askArgs args
  | "Choose" => chooseArgs step args
  | "Repeat" => repeatArgs step args
  | "Call" => callArgs args
  | _ => args

def ofValue (step : Value) : Except Error Step := do
  let verb ← (← step.lookup "verb").orElse "" |>.toText "strip"
  let raw := strip verb
  let verb := canonicalVerb raw
  let args ← (step.field "args").toFieldsOrNone
  pure ⟨verb, canonicalArgs verb step args, raw⟩

def arg (s : Step) (name : String) : Value :=
  s.args.getD name .null

def firstArg (s : Step) (names : List String) : Value :=
  ((names.map s.arg).find? (!·.isNull)).getD .null

end Step

end Loom
