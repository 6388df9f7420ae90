import Loom.Command.Interpret
import Loom.Document.Search
import Loom.Golden
import Loom.Machine.Code
import Loom.Version

/-!
# Working with Documents of Modules

The commands that take modules from a document: one runs the tests of an agent and
compares the receipts with stored ones, one runs a module by name, one shows the
stack code of each module. Another compares outlines with their stored documents.
-/

namespace Loom.Command

open Loom.Text Loom.Document Loom.Golden

namespace Modules

def testUsage : Usage where
  choices := [(Choice.value "--modules" "MODULES" "").needed,
    (Choice.value "--tests" "TESTS" "").needed,
    (Choice.value "--golden-dir" "GOLDEN_DIR" "").needed,
    .flag "--strict" "", .flag "--snapshot" "", .flag "--update-goldens" ""] ++ overlayChoices

def callUsage : Usage where
  choices := [.value "--modules" "MODULES" "",
    (Choice.value "--module" "MODULE" "module name (raw)").needed,
    .flag "--enforce-capabilities" "", overlayChoice, knownVerbsChoice,
    .value "--capabilities" "CAPABILITIES" "capabilities JSON path"]
  slots := [⟨"inputs", .many, "kv", "inputs as name=value"⟩]

def withOverlays (receipt : Receipt) (names warnings : List String) : Value :=
  let notes := warnings.map fun w => Value.obj
    [("level", .str "warning"), ("event", .str "overlay"), ("message", .str w)]
  ({ receipt with logs := receipt.logs ++ notes }.toValue).setField "overlaysLoaded"
    (.list (.str "core" :: names.map .str))

def runUnder (table : Overlay.Table) (settings : Settings) (capabilities m : Value)
    (inputs : Fields Value) : Command (Value × Value) := do
  let (expanded, warnings) ← Overlay.expandModule table settings.options m
  let (result, s) := (Session.start capabilities settings.enforce [] []).run
    (Run.runModule expanded (.obj inputs) none none)
  emit s.output
  pure (← result, withOverlays s.receipt settings.overlays warnings)

structure Trial where
  target : Value
  name : Value
  inputs : Fields Value
  expected : Value

def Trial.ofValue (number : Nat) (v : Value) : Except Error Trial := do
  let target ← v.lookup "module"
  let name := v.field "name"
  pure {
    target := (target.orElse name).orElse "Unnamed Module"
    name := name.orElse (.str ("test-" ++ Decimal.showInt number))
    inputs := ← (v.field "inputs").toFieldsOrNone
    expected := v.fieldD "expected" (v.field "expect") }

def Trial.goldenName (t : Trial) : String :=
  slugOf t.target ++ "__" ++ t.name.display ++ ".receipt.json"

def Trial.title (t : Trial) : String :=
  t.target.display ++ " :: " ++ t.name.display

def storedReceipt (folder : String) (t : Trial) : Command Value := do
  let files := (← get).filesAt folder
  match (← findFile files folder t.goldenName).map files.readJson with
  | some (.ok v) => pure v
  | _ => pure .null

def storeReceipt (folder : String) (t : Trial) (receipt : Value) : Command Unit := do
  makeFolder folder
  save (Path.joined folder t.goldenName)
    ((← Json.Style.prettySortedOpen.encode receipt) ++ "\n")

/-- Where a receipt differs from the stored one, `none` if it does not. -/
def receiptFault? (receipt stored : Value) : Option String :=
  if stored.isNull then some "no-golden"
  else
    (difference? receipt stored).map fun place => if stored.truthy then place else "no-golden"

def runTrial (a : Arguments) (table : Overlay.Table) (modules : Value) (t : Trial) :
    Command Bool := do
  let found ← findModule modules t.target
  match found.filter Value.truthy with
  | none =>
    print ("[FAIL] " ++ t.title ++ "  (module not found)")
    pure true
  | some m =>
    let (actual, receipt) ← runUnder table (Interpret.settingsOf a) .null m t.inputs
    let folder := Path.tidy ((a.value? "--golden-dir").getD "")
    let fault ← if a.has "--snapshot" || a.has "--update-goldens" then do
        storeReceipt folder t receipt
        pure none
      else do pure (receiptFault? receipt (← storedReceipt folder t))
    let ok := actual.same t.expected
    let got ← actual.shown
    if ok && fault.isNone then
      print ("[PASS] " ++ t.target.display ++ " inputs=" ++ (Value.obj t.inputs).display ++
        " expect=" ++ t.expected.display ++ " got=" ++ got)
    if !ok then
      print ("[FAIL] " ++ t.title ++ " VALUE expect=" ++ t.expected.display ++ " got=" ++ got)
    if let some place := fault then
      print ("[FAIL] " ++ t.title ++ " RECEIPT mismatch at " ++ place)
    pure (!ok || fault.isSome)

def runTrials (a : Arguments) (table : Overlay.Table) (modules : Value) (number : Nat) :
    List Value → Command Bool
  | [] => pure false
  | v :: rest => do
    let failed ← runTrial a table modules (← Trial.ofValue number v)
    let others ← runTrials a table modules (number + 1) rest
    pure (failed || others)

/-- Names and values separated by equals signs. A word without one is passed over. -/
def inputsOf (words : List String) : Fields Value :=
  words.foldl (fun acc word =>
    match partition word "=" with
    | (name, some value) => acc.put name (.str value)
    | (_, none) => acc) []

def bundled (name : String) : Command String := do
  pure ((← get).home ++ "/agents/loomweaver/" ++ name)

def readCapabilities (path : String) : Command Value := do
  if ← pathExists path then
    match ← attempt (readJson path) with
    | .ok v => pure v
    | .error _ => pure (.obj [])
  else pure (.obj [])

def checkGolden (path : String) : Command Nat := do
  let m ← Module.ofText (← readText path)
  let m := if m.hasField "astVersion" then m else m.setField "astVersion" "2.0.0"
  let stored := path ++ ".json"
  let name := Path.base path
  if !(← pathExists stored) then
    print ("[ERROR] Missing golden: " ++ stored ++ ". Export via: python -m src.loom_cli " ++ path)
    return 1
  let old ← readJson stored
  if (← Json.Style.compact.encode m) == (← Json.Style.compact.encode old) then
    print ("[OK] " ++ name ++ " matches golden.")
    return 0
  let before ← old.lookupD "astVersion" "0.0.0"
  let after := m.fieldD "astVersion" "0.0.0"
  let change := "(old " ++ before.display ++ " -> new " ++ after.display ++ ")."
  let newer ← Version.ofValue after
  if newer.isAfter (← Version.ofValue before) then
    print ("[FAIL] AST changed for " ++ name ++ " with version bump " ++ change)
    print ("       Update golden: python -m src.loom_cli " ++ path)
    return 3
  print ("[FAIL] AST changed for " ++ name ++ " but astVersion did not increase " ++ change)
  print ("       Bump astVersion and update golden via: python -m src.loom_cli " ++ path)
  return 2

def peekModule (m : Value) : Command Unit := do
  let code ← Machine.moduleCode m
  print ("MODULE: " ++ (m.field "name").display)
  let steps ← ((m.field "flow").orElse (.list [])).length
  print ("  flow steps: " ++ Decimal.showInt steps)
  print ("  bytecode insns: " ++ Decimal.showInt code.length)
  if code.length ≤ 12 then
    for (i, n) in code.zipIdx do
      print ("    " ++ Moment.padded 2 n ++ ": " ++ i.show)
  print ""

end Modules

open Modules in
def testModules (words : List String) : Command Int := do
  let a ← arguments testUsage words
  let modules ← readJson (Path.tidy ((a.value? "--modules").getD ""))
  let doc ← readJson (Path.tidy ((a.value? "--tests").getD ""))
  let tests ← ((← doc.lookup "tests").orElse (.list [])).items
  let table ← Overlay.load (← directory) (a.values "--overlay")
  let failed ← runTrials a table modules 1 tests
  pure (if failed && a.has "--strict" then 1 else 0)

open Modules in
def callModule (words : List String) : Command Int := do
  let a ← arguments callUsage words
  let modulesPath := (a.value? "--modules").getD (← bundled "loomweaver.modules.ast.json")
  let capabilitiesPath :=
    (a.value? "--capabilities").getD (← bundled "loomweaver.capabilities.json")
  let modules ← readJson (Path.tidy modulesPath)
  let capabilities ← readCapabilities (Path.tidy capabilitiesPath)
  let found ← findNamed modules (.str ((a.value? "--module").getD ""))
  match found.filter Value.truthy with
  | none => pure 1
  | some m =>
    let settings := Interpret.settingsOf a
    let table ← Overlay.load (← directory) settings.overlays
    let (result, _) ← runUnder table settings capabilities m (inputsOf (a.words "inputs"))
    if !result.isNull then printValue result
    pure 0

open Modules in
/-- Ends with an exit code of its own. -/
def checkGoldens : Command Unit := do
  if !(← pathExists "Modules") then
    print "[ERROR] Modules/ not found."
    exit 1
  let files ← directory
  let names := if files.isFolder "Modules" then files.names "Modules" else []
  let codes ← (names.filter fun n => endsWith n ".loom").mapM fun n => checkGolden ("Modules/" ++ n)
  exit (if codes.any (· != 0) then 1 else 0)

open Modules in
def peek (words : List String) : Command Unit := do
  match words with
  | [] =>
    print "Usage: python scripts/peek_ast.py <modules_ast.json>"
    exit 2
  | path :: _ =>
    let doc ← readJson path
    let modules := (← doc.lookup "modules").orElse (.list [])
    if !modules.truthy then
      print "No modules found in AST."
      exit 1
    for m in ← modules.items do peekModule m

end Loom.Command
