import Loom.Agent.Line
import Loom.Command.Interpret

/-!
# Compiling

The commands that turn texts into documents: steps into steps under packs, an
outline into a document of modules, the outline of an agent into its program, the
outline of its modules and their flows. One more shows how an outline is read.
-/

namespace Loom.Command

open Loom.Text

namespace Compile

def expandUsage : Usage where
  program := "overlay-cli"
  choices := [.values "--overlay" "OVERLAY" "Overlay pack to include (e.g., research)",
    .flag "--no-unknown-verbs" "Error on unknown verbs",
    .flag "--enforce-capabilities" "Block if capabilities missing",
    .values "--grant" "GRANT" "Grant a capability (may repeat)",
    (Choice.value "--in" "INFILE" "Input steps JSON file").needed,
    .value "--out" "OUTFILE" "Output JSON file (optional)",
    .flag "--pretty" "Pretty-print output JSON"]

def readSteps (path : String) : Command (List Value) := do
  if !(← get).files.isFile path then fail (.missing path)
  match ← readJson path with
  | .list steps => pure steps
  | _ => fail .stepsExpected

def compileUsage : Usage where
  about := "Compile Loom outline to modules AST"
  choices := overlayChoices
  slots := [⟨"input", .one, "input", "Outline source file (.loom/.md)"⟩,
    ⟨"output", .one, "output", "Output AST JSON path"⟩]

def visible (c : Char) : Char :=
  if c == ' ' then '·' else if c == '\t' then '⇥' else c

def numbered (n : Nat) : List String → List String
  | [] => []
  | line :: rest =>
    (Moment.padded 2 n ++ "  " ++ String.ofList (line.toList.map visible)) :: numbered (n + 1) rest

end Compile

open Compile in
def expandFile (words : List String) : Command Int := do
  let a ← arguments expandUsage words
  let overlays := a.values "--overlay"
  let settings := { Interpret.settingsOf a with granted := (a.values "--grant").map .str }
  let table ← Overlay.load (← directory) overlays
  let steps ← readSteps ((a.value? "--in").getD "")
  let e ← Overlay.expandSteps table settings.options steps
  let style := if a.has "--pretty" then Json.Style.pretty else Json.Style.line
  let text ← style.encode (.obj [("canonical", e.steps),
    ("receipts", .list (e.origins.map (·.toValue))), ("warnings", .list (e.warnings.map .str)),
    ("overlaysLoaded", .list ("core" :: overlays.map .str))])
  match Interpret.pathOf? a "--out" with
  | some path => save path (text ++ if a.has "--pretty" then "\n" else "")
  | none => print text
  pure 0

open Compile in
def compileOutline (words : List String) : Command Int := do
  let a ← arguments compileUsage words
  let input := Path.tidy ((a.word? "input").getD "")
  let output := Path.tidy ((a.word? "output").getD "")
  if !(← pathExists input) then
    print ("compiler: input not found: " ++ input)
    return 2
  let m ← Module.ofText (← readText input)
  let settings := Interpret.settingsOf a
  let table ← Overlay.load (← directory) settings.overlays
  let (doc, warnings) ←
    Overlay.expandDocument table settings.options (.obj [("modules", .list [m])])
  for w in warnings do print ("compiler: overlay warning: " ++ w)
  makeFolder (Path.parent output)
  save output ((← Json.Style.prettySortedOpen.encode doc) ++ "\n")
  print ("compiler: wrote " ++ output)
  pure 0

def compileAgent (words : List String) : Command Int := do
  match words with
  | [input, output] =>
    if !(← get).files.exists? input || input.isEmpty then
      print ("Input file not found: " ++ input)
      return 2
    let text ← readText input
    let program := (← Agent.readCover text).toValue
    let outline := (Agent.readModules text).map (·.toValue)
    let folder := Path.parent output
    makeFolder folder
    let write (path : String) (doc : Value) : Command Unit := do
      save path (← Json.Style.prettyOpen.encode doc)
    write output program
    print ("Wrote Program JSON → " ++ output)
    let stem := Path.withoutEnding output
    let outlinePath := stem ++ ".modules.outline.json"
    write outlinePath (.obj [("modules", outline)])
    print ("Wrote Module Outline JSON → " ++ outlinePath)
    let flowPath :=
      Path.joined folder (replace (Path.base stem) ".program" "" ++ ".modules.ast.json")
    let modules ← Agent.compileModules true outline
    write flowPath (.obj [("modules", modules)])
    print ("Wrote Module AST JSON → " ++ flowPath)
    pure 0
  | _ =>
    print ("Usage: python -m compile_outline_to_program <input_outline.md> <output_program.json>")
    pure 2

def showTokens (words : List String) : Command Unit := do
  match words with
  | [path] =>
    let text := Outline.hashedText (← readText (Path.tidy path))
    print "=== Normalized text (with visible spaces) ==="
    for line in Compile.numbered 1 (lines text) do print line
    print "\n=== Tokens ==="
    for token in Outline.tokenize text do
      print (← Json.Style.lineOpen.encode token.toValue)
  | _ =>
    print "usage: python dev/debug_normalize_tokens.py <module.loom>"
    exit 2

end Loom.Command
