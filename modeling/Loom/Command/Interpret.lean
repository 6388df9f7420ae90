import Loom.CallGraph
import Loom.Command.Basic
import Loom.Outline.Normal

/-!
# Running an Outline

The command that runs the outline in a file with the interpreter. It prints the
result, or what it is asked for: the log, the call graph, the receipt. A run that
fails leaves a receipt too, which says why.
-/

namespace Loom.Command

open Loom.Text

def overlayChoice : Choice :=
  .values "--overlay" "OVERLAY" "Overlay pack to include (repeatable)"

def knownVerbsChoice : Choice :=
  .flag "--no-unknown-verbs" "Error on verbs without overlay mapping"

def overlayChoices : List Choice :=
  [overlayChoice, knownVerbsChoice,
    .flag "--enforce-capabilities" "Block missing overlay capabilities"]

namespace Interpret

def usage : Usage where
  program := "loom"
  about := "Run Loom module with the interpreter; print logs, receipts, and call graphs."
  choices := [.flag "--tests" "Run embedded tests in the module.",
    .value "--in" "INPUTS" "Input KEY=VALUE (repeatable).",
    .value "--registry-dir" "REGISTRY_DIR"
      "Directory to auto-load callee modules (default: Modules).",
    .flag "--no-registry" "Disable loading registry from the directory.",
    .value "--emit-ast" "PATH" "Emit parsed AST JSON for the module to PATH.",
    .flag "--print-logs" "", .flag "--print-receipt" "", .flag "--result-only" "",
    .flag "--print-callgraph" "Print the callGraph JSON.",
    .value "--graph-dot" "PATH" "Write callGraph as Graphviz DOT to PATH.",
    .value "--receipt-out" "PATH" "Write execution receipt to PATH (JSON).",
    .flag "--verify" "Run verifier (warnings-only) and attach to receipt.",
    .values "--overlay" "OVERLAY" "Overlay pack to include (repeatable).",
    .flag "--no-unknown-verbs" "Error on verbs without overlay mapping.",
    .flag "--enforce-capabilities" "Block missing overlay capabilities."]
  slots := [⟨"module", .atMostOne, "module", "Path to module (.loom | .json | .loom.json)."⟩]

/-- The text between two equal quotes. -/
def unquoted? (s : String) : Option String :=
  match s.toList with
  | q :: rest =>
    if (q == '"' || q == '\'') && rest.getLast? == some q then
      some (String.ofList rest.dropLast)
    else none
  | [] => none

/-- A value of the command line: a quoted text, a boolean, a number, or else the
    text. -/
def readInput (text : String) : Value :=
  let s := strip text
  match unquoted? s with
  | some inner => .str inner
  | none =>
    if lower s == "true" then .bool true
    else if lower s == "false" then .bool false
    else
      match Decimal.readInt? s, Decimal.readFloat? s with
      | some i, _ => .int i
      | none, some x => .float x
      | none, none => .str s

/-- Inputs separated by commas. A piece without an equals sign is passed over. -/
def readInputs (text : String) : Fields Value :=
  (splitOn text ",").foldl (fun acc piece =>
    match partition (strip piece) "=" with
    | (name, some value) => acc.put name (readInput value)
    | (_, none) => acc) []

def noFindings : Value :=
  .obj [("warnings", .list []), ("errors", .list [])]

def withFindings (a : Arguments) (receipt : Value) : Value :=
  if a.has "--verify" then receipt.setField "verify" noFindings else receipt

def settingsOf (a : Arguments) : Settings where
  overlays := a.values "--overlay"
  noUnknownVerbs := a.has "--no-unknown-verbs"
  enforce := a.has "--enforce-capabilities"

def pathOf? (a : Arguments) (name : String) : Option String :=
  (a.value? name).filter (!·.isEmpty)

def report (a : Arguments) (result receipt : Value) : Command Unit := do
  let graph := receipt.field "callGraph"
  if a.has "--result-only" then printValue result
  else
    if a.has "--print-logs" then
      for line in (receipt.field "logs").list?.getD [] do printValue line
    if a.has "--print-callgraph" && graph.truthy then
      print (← Json.Style.prettySorted.encode graph)
    if a.has "--print-receipt" then print (← Json.Style.prettySorted.encode receipt)
    if graph.truthy then
      if let some path := pathOf? a "--graph-dot" then
        save (Path.tidy path) (← CallGraph.graphText graph)
    if !a.has "--print-logs" && !a.has "--print-receipt" && !a.has "--print-callgraph" then
      printValue result

def leaveReceipt (a : Arguments) (receipt : Value) : Command Unit := do
  if let some path := pathOf? a "--receipt-out" then
    save (Path.tidy path) (← Json.Style.prettySorted.encode receipt)
    print ("Wrote receipt: " ++ path)

def runFields : Command (Fields Value) := do
  let d ← get
  pure [("timestamp", d.clock.iso), ("uuid", d.runId)]

def failureReceipt (base : Fields Value) (e : Error) (receipt : Value) : Value :=
  .obj (base ++ [("status", .str "error"), ("reason", .str e.message),
    ("logs", receipt.fieldD "logs" (.list [])), ("steps", receipt.fieldD "steps" (.list []))])

/-- Tell of a run that failed, after it had got as far as `receipt`. -/
def reportFailure (a : Arguments) (base : Fields Value) (e : Error) (receipt : Value) :
    Command Int := do
  let told := withFindings a (failureReceipt base e receipt)
  print (← Json.Style.prettySorted.encode told)
  leaveReceipt a told
  pure 1

end Interpret

open Interpret in
def interpret (words : List String) : Command Int := do
  let a ← arguments usage words
  let path := Path.tidy ((a.word? "module").getD "")
  if ((a.word? "module").getD "").isEmpty then exit 2
  if !(← isFile path) then exit 2
  let inputs := readInputs ((a.value? "--in").getD "")
  let text ← readText path
  let source := [("path", .str path), ("hash", .str ("sha256:" ++ Outline.sourceHash text))]
  let base := [("engine", .str "interpreter"), ("module", .obj source), ("run", .obj (← runFields))]
  let files ← directory
  match ← attempt (ofPrinted (Program.run files text (.obj inputs) (settingsOf a))) with
  | .error e => reportFailure a base e (.obj [])
  | .ok (result, receipt) =>
    let receipt := (receipt.setField "module" (.obj source)).setField "run" (.obj (← runFields))
    let receipt := withFindings a receipt
    match ← attempt (do report a result receipt; leaveReceipt a receipt) with
    | .error e => reportFailure a base e receipt
    | .ok _ => pure 0

end Loom.Command
