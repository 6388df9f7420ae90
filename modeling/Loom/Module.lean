import Loom.Flow.Canonical
import Loom.Outline.Tree

/-!
# Modules

A program module as a document: its name and declarations, its flow in canonical
form, and its tests with their values read from text.
-/

namespace Loom

open Loom.Text Loom.Text.Pattern

namespace Module

def numeral : Pattern :=
  start ++ optional (one fun c => c == '+' || c == '-') ++ many1 isDigit ++
    optional (chr '.' ++ many1 isDigit) ++ finish

/-- A value written in a test: a quoted text, a boolean, a number, or else the
    text itself. -/
def readScalar (text : String) : Value :=
  let s := strip text
  let cs := s.toList
  let between (q : Char) : Bool := cs.length ≥ 2 && cs.head? == some q && cs.getLast? == some q
  if between '"' || between '\'' then
    let inside := String.ofList (cs.drop 1).dropLast
    .str (replace (replace inside "\\\"" "\"") "\\'" "'")
  else
    let low := lower s
    if low == "true" then .bool true
    else if low == "false" then .bool false
    else if numeral.fits s then
      if cs.contains '.' then
        match Decimal.readFloat? s with
        | some x => .float x
        | none => .str s
      else
        match Decimal.readInt? s with
        | some i => .int i
        | none => .str s
    else .str s

def readScalarValue (v : Value) : Value :=
  match v with
  | .str s => readScalar s
  | v => v

def readTestInputs (v : Value) : Value :=
  match v with
  | .obj fs => .obj (fs.map fun f => (f.1, readScalarValue f.2))
  | _ => .obj []

def readDeclaration? (item : Value) : Option Value :=
  (item.field? "name").map fun name =>
    let type := ((item.field "type").orElse (item.field "resultType")).orElse "Text"
    .obj [("name", name), ("resultType", type)]

def readDeclarations (v : Value) : Except Error (List Value) := do
  let items ← (v.orElse (.list [])).items
  pure (items.filterMap readDeclaration?)

def readTest? (test : Value) : Option Value :=
  if test.isObj then
    let inputs := ((test.field "input").orElse (test.field "inputs")).orElse (.obj [])
    let expected := (test.field "expectedOutput").orElse (test.field "expected")
    some (.obj [("name", (test.field "name").orElse "test"),
      ("inputs", readTestInputs inputs), ("expected", readScalarValue expected)])
  else none

def ofTree (tree : Value) : Except Error Value := do
  if !tree.isObj then throw .treeExpected
  let name := (tree.field "Module").orElse "<anonymous>"
  let purpose := (tree.field "Purpose").orElse ""
  let version := (tree.field "Version").orElse "2.1"
  let inputs ← readDeclarations (tree.field "Inputs")
  let outputs ← readDeclarations (tree.field "Outputs")
  let raw ← ((tree.field "Flow").orElse (.obj [])).lookup "steps"
  let flow ← Flow.canonical (← Flow.buildFlow (raw.orElse (.list [])))
  let tests := (← ((tree.field "Tests").orElse (.list [])).items).filterMap readTest?
  let module : Fields Value :=
    [("type", "Module"), ("name", name), ("purpose", purpose), ("version", version),
      ("astVersion", "2.1.0"), ("inputs", inputs), ("outputs", outputs),
      ("flow", flow)]
  pure (.obj (if tests.isEmpty then module else module.put "tests" (.list tests)))

def ofText (text : String) : Except Error Value := do
  ofTree (← Outline.treeOf text)

end Module

end Loom
