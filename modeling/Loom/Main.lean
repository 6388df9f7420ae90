import Loom.Command.Compile
import Loom.Command.Folders
import Loom.Command.RunMachine
import Loom.Command.Wrapper
import Loom.Demo.Calls
import Loom.Demo.Outlines
import Loom.Folder.Zip
import Std.Time.DateTime.Timestamp

/-!
# The Program

The first word of the command line names a command, the others are for the command.
The directory is read before the command runs, and what the command changed is
written afterwards.
-/

namespace Loom.Main

open Loom.Text

def plain (c : Command Unit) : Command Int := do
  c
  pure 0

def demos : List (String × Command Unit) :=
  [("retries", Demo.retries), ("fallback", Demo.fallback), ("breaker", Demo.breaker),
    ("expressions", Demo.expressions), ("booleans", Demo.booleans), ("call", Demo.call),
    ("choice", Demo.choice), ("receipt", Demo.choiceReceipt)]

open Command in
def commands : List (String × (List String → Command Int)) :=
  [("interpret", interpret), ("machine", runMachine machineEngine), ("expand", expandFile),
    ("compile", compileOutline), ("agent", compileAgent), ("tokens", (plain <| showTokens ·)),
    ("check", Command.validate), ("trial", testModules), ("call", callModule),
    ("goldens", fun _ => plain checkGoldens), ("code", (plain <| peek ·)), ("tree", drawTree),
    ("inventory", listFolder), ("snapshot", (plain <| takeSnapshot ·)),
    ("briefing", fun _ => plain writeBriefing)] ++
  ["validate", "test", "run"].map (fun verb => (verb, (wrapper none <| verb :: ·))) ++
  demos.map fun (name, demo) => ("demo-" ++ name, fun _ => plain demo)

structure Loaded where
  files : Files := .empty
  times : Fields Int := []

/-- Read an entry of a folder and what is below it. What is no text is passed over. -/
partial def load (folder : String) (acc : Loaded) (e : IO.FS.DirEntry) : IO Loaded := do
  let path := Path.joined folder e.fileName
  let time := (← e.path.metadata).modified.sec
  let acc := { acc with times := (path, time) :: acc.times }
  if ← e.path.isDir then
    let mut acc := { acc with files := acc.files.addFolder path }
    for inner in ← e.path.readDir do acc ← load path acc inner
    return acc
  try
    let text ← IO.FS.readFile e.path
    return { acc with files := { acc.files with texts := (path, text) :: acc.files.texts } }
  catch _ => return acc

def loadDirectory : IO Loaded := do
  let mut acc : Loaded := {}
  for e in ← (← IO.currentDir).readDir do
    try acc ← load "" acc e
    catch _ => pure ()
  return acc

def store (before after : Files) : IO Unit := do
  for f in after.folders do
    if !before.folders.contains f then IO.FS.createDirAll f
  for (path, text) in after.texts do
    if before.texts.get? path != some text then IO.FS.writeFile path text
  for (path, archive) in after.archives do
    IO.FS.writeBinFile path ⟨(Folder.Zip.zipBytes archive).toArray⟩

def freshId : IO String := do
  let digits := (← IO.getRandomBytes 16).toList.flatMap fun b => hex 2 b.toNat
  let part (first count : Nat) : String := String.ofList ((digits.drop first).take count)
  return join "-" [part 0 8, part 8 4, "4" ++ part 13 3, "a" ++ part 17 3, part 20 12]

def openDesk (program : String) (loaded : Loaded) : IO Desk := do
  let seconds := (← Std.Time.Timestamp.now).toSecondsSinceUnixEpoch.val
  let app ← IO.appPath
  let home := (app.parent.getD app).toString
  return {
    files := loaded.files
    bundle := Bundle.bundledFiles home
    home
    folder := (← IO.currentDir).toString
    runner := app.toString
    clock := .ofMoment (.ofSeconds seconds.toNat) seconds
    runId := ← freshId
    times := fun path => loaded.times.getD path seconds
    program }

def run (program : String) (command : List String → Command Int) (words : List String) :
    IO UInt32 := do
  let loaded ← loadDirectory
  let (result, desk) := ExceptT.run (command words) (← openDesk program loaded)
  IO.print desk.output
  store loaded.files desk.files
  match result with
  | .ok code => return UInt32.ofNat code.toNat
  | .error (.exit code) => return UInt32.ofNat code.toNat
  | .error (.failed e) =>
    IO.eprintln ("error: " ++ e.message)
    return 1

end Loom.Main

def main (words : List String) : IO UInt32 := do
  match words with
  | [] =>
    IO.eprintln ("commands: " ++ Loom.Text.join ", " (Loom.Main.commands.map Prod.fst))
    return 2
  | name :: rest =>
    match Loom.Fields.get? Loom.Main.commands name with
    | some command => Loom.Main.run name command rest
    | none =>
      IO.eprintln ("unknown command: " ++ name)
      return 2
