import Loom.Command.Interpret

/-!
# Running on the Machine

The command that runs an outline, given as a path, on the machine. The receipt is
completed with what the engine did not tell, and a run that fails leaves a receipt
that says why.
-/

namespace Loom.Command

open Loom.Text

namespace RunMachine

def usage : Usage where
  program := "loom_vm_cli"
  choices := [.values "--in" "INPUTS" "Input key=value (repeatable)",
    .flag "--print-logs" "Print runtime logs to stdout",
    .flag "--print-receipt" "Print receipt JSON to stdout",
    .flag "--result-only" "Print only the result to stdout",
    .value "--receipt-out" "RECEIPT_OUT" "Write receipt JSON to this file",
    .flag "--verify" "Attach verifier (warnings-only) stub"]
  slots := [⟨"module", .one, "module_path", "Path to a .loom module file"⟩]

def readPairs : List String → Except Error (Fields Value)
  | items => items.foldlM (fun (acc : Fields Value) item =>
    match partition item "=" with
    | (name, some value) => .ok (acc.put name (.str value))
    | (_, none) => .error (.badInput item)) []

abbrev Engine := String → Fields Value → Command (List Value)

def baseReceipt (path : String) (run : Fields Value) : Fields Value :=
  [("engine", "vm"),
    ("module", .obj [("name", Path.base path), ("astVersion", "2.1.0"),
      ("hash", "sha256(normalizedSource)")]),
    ("run", .obj run), ("logs", .list []), ("steps", .list []), ("callGraph", .list []),
    ("ask", .list []), ("env", .obj [])]

def completed (base : Fields Value) (logs receipt : Value) : Except Error Value :=
  match receipt with
  | .obj fs =>
    let known := Fields.put base "logs" (logs.orElse (.list []))
    .ok (.obj (known.foldl (fun (acc : Fields Value) f => acc.putNew f.1 f.2) fs))
  | v => .error (.noMember v.kind.name "setdefault")

def leave (a : Arguments) (receipt : Value) : Command Unit := do
  let text ← Json.Style.pretty.encode receipt
  if a.has "--print-receipt" then print text
  if let some path := Interpret.pathOf? a "--receipt-out" then save path (text ++ "\n")

/-- A scalar as it is shown, anything else as a document. -/
def resultText (v : Value) : Except Error String :=
  if v.isStr || v.isNumber then v.shown else Json.Style.line.encode v

def runBy (engine : Engine) (a : Arguments) (path : String) (inputs base : Fields Value) :
    Command Unit := do
  match ← engine path inputs with
  | [result, receipt, logs] =>
    let receipt ← completed base logs receipt
    if a.has "--print-logs" && logs.truthy then
      for line in ← logs.items do printValue line
    if a.has "--result-only" then print (← resultText result)
    leave a (Interpret.withFindings a receipt)
  | parts => fail (.badUnpack 3 parts.length)

end RunMachine

open RunMachine in
def machineEngine : Engine := fun path inputs => do
  let files ← directory
  let (result, receipt) ← ofPrinted (Program.runMachine files path (.obj inputs) {})
  pure [result, receipt, .list []]

open RunMachine in
def runMachine (engine : Engine) (words : List String) : Command Int := do
  let a ← arguments usage words
  let path := (a.word? "module").getD ""
  let inputs ← readPairs (a.values "--in")
  let base := baseReceipt path (← Interpret.runFields)
  match ← attempt (runBy engine a path inputs base) with
  | .ok _ => pure 0
  | .error e =>
    let told : Fields Value := base ++ [("status", .str "error"), ("reason", .str e.message)]
    leave a (Interpret.withFindings a (.obj told))
    pure 1

end Loom.Command
