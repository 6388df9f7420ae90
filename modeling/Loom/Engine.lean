import Loom.Json.Writer
import Loom.Value.Access

/-!
# Finding an Engine

A program is handed to the first engine at hand. Engines are tried in a fixed
order; if there is none, the interpreter is started as a program of its own and
asked for a receipt. Engines answer in different shapes, which are brought to one.
-/

namespace Loom.Engine

open Loom.Text

/-- What an engine gives back: several parts, or a single value. -/
inductive Reply where
  | parts (vs : List Value)
  | single (v : Value)

structure Answer where
  result : Value
  receipt : Value
  logs : Value

def blankReceipt : Value :=
  .obj [("engine", "vm"), ("logs", .list []), ("steps", .list []), ("callGraph", .list []),
    ("ask", .list []), ("env", .obj [])]

namespace Answer

/-- Three parts are an answer and two lack the log; an object alone is a receipt;
    anything else is a result. -/
def ofReply : Reply → Answer
  | .parts [result, receipt, logs] => ⟨result, receipt, logs⟩
  | .parts [result, receipt] => ⟨result, receipt, .list []⟩
  | .parts vs => ⟨.list vs, blankReceipt, .list []⟩
  | .single (.obj fs) => ⟨.null, .obj fs, .list []⟩
  | .single v => ⟨v, blankReceipt, .list []⟩

def toValue (a : Answer) : Value :=
  .list [a.result, a.receipt, a.logs]

end Answer

structure Leavings where
  output : String
  errors : String
  receipt : Option String

structure Site where
  modules : Fields (Fields Value)
  program : Option Leavings

def entryPoints : List (String × String) :=
  [("src.compiler", "run_loom_text_with_vm"), ("src.vm", "run_loom_text_with_vm"),
    ("src.compiler", "run_module_from_file"), ("src.vm", "run_module_from_file"),
    ("src.interpreter", "run_module_from_file")]

def programModule : String := "src.loom_cli"

structure Job where
  path : String
  inputs : Fields Value
  flags : Fields Value

def fullFlags (flags : Fields Value) : Fields Value :=
  Fields.merge [("print_logs", false), ("print_receipt", false),
    ("receipt_out", .null), ("result_only", false)] flags

/-- The arguments with which the interpreter is started. `receipt` is the path
    under which it is to leave its receipt. -/
def programArguments (job : Job) (receipt : String) : List String :=
  ["-m", programModule, job.path, "--print-receipt", "--receipt-out", receipt, "--result-only"] ++
    job.inputs.flatMap fun f => ["--in", f.1 ++ "=" ++ f.2.display]

def Leavings.logs (l : Leavings) : List Value :=
  ([strip l.output, strip l.errors].filter (!·.isEmpty)).map .str

def Leavings.answer? (l : Leavings) : Option Answer :=
  match l.receipt.map Json.read with
  | some (.ok receipt) => some ⟨.null, receipt, .list l.logs⟩
  | _ => none

namespace Site

def function? (s : Site) (entry : String × String) : Option Value :=
  (s.modules.get? entry.1).bind fun m => m.get? entry.2

/-- What was called, with what, and how it came out. -/
structure Trial where
  calls : List Value
  answer : Except Error Answer

def functionCall (entry : String × String) (job : Job) : Value :=
  .list [.str entry.1, .str entry.2, .str job.path, .obj job.inputs, .obj (fullFlags job.flags)]

def run (s : Site) (job : Job) (receipt : String) : Trial :=
  match entryPoints.findSome? fun e => (s.function? e).map (e, ·) with
  | some (entry, v) => ⟨[functionCall entry job], .ok (.ofReply (.single v))⟩
  | none =>
    if !s.modules.has programModule then ⟨[], .error .noEngine⟩
    else
      let call := Value.list ((programArguments job receipt).map .str)
      match s.program.bind Leavings.answer? with
      | some a => ⟨[call], .ok a⟩
      | none => ⟨[call], .error .noEngine⟩

end Site

end Loom.Engine
