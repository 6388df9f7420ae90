import Loom.Bundle.Files
import Loom.Command.Modules
import Loom.Command.Validate

/-!
# The Friendly Command

One command with three verbs for the agent that comes with the tools: validate it,
test it, run one of its modules. It prints the tool that it starts with all its
arguments, and ends as the tool ends.
-/

namespace Loom.Command

open Loom.Text

namespace Wrapper

def usage : Usage where
  program := "loom"
  about := "Loom CLI"
  choices := []
  slots := [⟨"command", .remainder, "\x7bvalidate,test,run\x7d", ""⟩]
  verbs := [("validate", "validate canonical AST + program + caps"),
    ("test", "run loomweaver module tests"), ("run", "run a single module with inputs")]

def validateUsage : Usage where
  program := "loom validate"
  choices := [.flag "--strict" "", overlayChoice, .flag "--no-unknown-verbs" "",
    .flag "--enforce-capabilities" ""]

def testUsage : Usage where
  program := "loom test"
  choices := [.flag "--strict" "fail on any mismatch",
    .flag "--snapshot" "(re)write golden receipts",
    .flag "--update-goldens" "Refresh stored golden receipts", overlayChoice,
    .flag "--no-unknown-verbs" "", .flag "--enforce-capabilities" ""]

def runUsage : Usage where
  program := "loom run"
  choices := [(Choice.value "--module" "MODULE" "module name (raw)").needed,
    .flag "--enforce-capabilities" "", overlayChoice, .flag "--no-unknown-verbs" ""]
  slots := [⟨"inputs", .many, "kv", "inputs as name=value"⟩]

structure Tool where
  script : String
  words : List String
  command : List String → Command Int

def passed (a : Arguments) (names : List String) : List String :=
  names.filter a.has

def overlayWords (names : List String) : List String :=
  names.flatMap fun n => ["--overlay", n]

def validateTool (agent : String) (a : Arguments) : Tool where
  script := "validate_program.py"
  words :=
    let overlays := a.values "--overlay"
    ["--program", agent ++ "/loomweaver.program.json",
      "--modules", agent ++ "/loomweaver.modules.ast.json",
      "--capabilities", agent ++ "/loomweaver.capabilities.json"] ++
      passed a ["--strict"] ++ overlayWords (if overlays.isEmpty then ["research"] else overlays) ++
      passed a ["--no-unknown-verbs", "--enforce-capabilities"]
  command := validate

def testTool (agent : String) (a : Arguments) : Tool where
  script := "run_module_tests.py"
  words :=
    ["--modules", agent ++ "/loomweaver.modules.ast.json",
      "--tests", agent ++ "/loomweaver.tests.json", "--golden-dir", agent ++ "/goldens"] ++
      passed a ["--strict", "--snapshot", "--update-goldens"] ++
      overlayWords (a.values "--overlay") ++
      passed a ["--no-unknown-verbs", "--enforce-capabilities"]
  command := testModules

def runTool (agent : String) (a : Arguments) : Tool where
  script := "run_ast_module.py"
  words :=
    ["--modules", agent ++ "/loomweaver.modules.ast.json",
      "--module", (a.value? "--module").getD ""] ++
      passed a ["--enforce-capabilities"] ++ overlayWords (a.values "--overlay") ++
      passed a ["--no-unknown-verbs"] ++ a.words "inputs"
  command := callModule

def verb? (name : String) : Option (Usage × (String → Arguments → Tool)) :=
  match name with
  | "validate" => some (validateUsage, validateTool)
  | "test" => some (testUsage, testTool)
  | "run" => some (runUsage, runTool)
  | _ => none

/-- The tool that a command line starts. Words that nothing takes are refused last. -/
def toolOf (agent : String) (words : List String) : Except Refusal Tool := do
  let a ← usage.readKnown words
  match a.words "command" with
  | [] => throw .misuse
  | name :: rest =>
    match verb? name with
    | none => throw .misuse
    | some (u, tool) =>
      let b ← u.readKnown rest
      if a.extra.isEmpty && b.extra.isEmpty then pure (tool agent b) else throw .misuse

def exitCode (c : Command Int) : Command Int :=
  tryCatch c fun stop =>
    match stop with
    | .exit code => pure code
    | .failed e => fail e

end Wrapper

open Wrapper in
/-- `child` is the exit code of a tool that runs elsewhere; without it the tool
    runs here. -/
def wrapper (child : Option Int) (words : List String) : Command Int := do
  let d ← get
  match toolOf (Bundle.agentFolder d.home) words with
  | .error r => refuse r
  | .ok tool =>
    print (join " " ("+" :: d.runner :: (d.home ++ "/scripts/" ++ tool.script) :: tool.words))
    match child with
    | some code => pure code
    | none => exitCode (tool.command tool.words)

end Loom.Command
