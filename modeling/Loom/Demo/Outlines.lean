import Loom.Command.Basic
import Loom.Json.Writer

/-!
# Outlines at Work

Small modules given as tokens, built and run: boolean operators, a call of another
module, a choice as it is built, and a choice with the receipt of its run. One more
demonstration shows expressions as they are read.
-/

namespace Loom.Demo

open Loom.Command

def heading (value : String) : Value :=
  .obj [("type", "SECTION"), ("value", value), ("nesting", .int 0)]

def verb (nesting : Nat) (value : String) : Value :=
  .obj [("type", "VERB"), ("value", value), ("nesting", .int nesting)]

def moduleOf (name purpose : String) (steps : List Value) : Except Error Value := do
  Module.ofTree (← Outline.parseTree true ([heading ("Module: " ++ name), heading "Version: 2.1",
    heading ("Purpose: " ++ purpose), heading "Flow"] ++ steps))

def receiptOf (registry : Fields Value) (m : Value) : Command Receipt := do
  let (result, s) := (Session.start .null false registry []).run (Run.runModule m .null none none)
  emit s.output
  let _ ← result
  pure s.receipt

def pretty (v : Value) : Command String :=
  Json.Style.pretty.encode v

def booleans : Command Unit := do
  let m ← moduleOf "SmokeBoolean" "boolean ops" [
    verb 1 "Make Adult = true", verb 1 "Make HasId = false", verb 1 "Make Expired = false",
    verb 1 "Choose", verb 2 "when Adult and (HasId or not Expired):", verb 3 "Show \"eligible\"",
    verb 2 "otherwise:", verb 3 "Show \"ineligible\""]
  let r ← receiptOf [] m
  print ("logs: " ++ (Value.list r.logs).display)
  match r.steps.find? fun s => (s.field "event").isText "choose" with
  | some s => print ("choose: " ++ s.display)
  | none => fail .noItem

def call : Command Unit := do
  let callee ← moduleOf "Greeting" "demo" [verb 1 "Return \"Hello \" + Name"]
  let m ← moduleOf "Parent" "demo" [
    verb 1 "Call Greeting with Name = \"World\" save as Out", verb 1 "Show Out"]
  let r ← receiptOf [("Greeting", callee)] m
  print ("Logs: " ++ (Value.list r.logs).display)
  print ("Steps: " ++ (← pretty (.list r.steps)))

def choice : Command Unit := do
  let m ← moduleOf "SmokeChoose" "parser smoke for Choose" [
    verb 1 "Choose", verb 2 "when score >= 90:", verb 3 "Show \"A\"",
    verb 2 "else if score >= 80:", verb 3 "Show \"B\"", verb 2 "otherwise:", verb 3 "Show \"F\""]
  match (m.field "flow").list?.bind List.head? with
  | some s => print (← pretty s)
  | none => fail .noItem

def choiceReceipt : Command Unit := do
  let m ← moduleOf "SmokeChooseReceipt" "receipts demo" [
    verb 1 "Make Score = 87", verb 1 "Choose", verb 2 "when Score >= 90:", verb 3 "Show \"A\"",
    verb 2 "else if Score >= 80:", verb 3 "Show \"B\"", verb 2 "otherwise:", verb 3 "Show \"F\""]
  print (← pretty (← receiptOf [] m).toValue)

def showExprs : List String → Command Unit
  | [] => pure ()
  | text :: rest => do
    print ("-- " ++ text)
    print (← pretty (← Flow.readExpr (.str text)))
    showExprs rest

def expressions : Command Unit :=
  showExprs ["1..5", "\"Hi, \" + name", "result * i"]

end Loom.Demo
