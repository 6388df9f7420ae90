import Loom.Command.Options
import Loom.Moment
import Loom.Program

/-!
# Commands

A command works at a desk: it reads and writes files, prints, and ends with an
exit code or fails. Everything it can see is on the desk, the time and the number
of the run included, so what a command does is a function of the desk.
-/

namespace Loom

open Loom.Text

structure Clock where
  iso : String
  stamp : String
  spoken : String
  /-- In seconds since the start of 1970. -/
  seconds : Int

def Clock.ofMoment (m : Moment) (seconds : Int) : Clock :=
  ⟨m.iso, m.stamp, m.spoken, seconds⟩

structure Desk where
  files : Files
  /-- The files that come with the tools, by their paths under `home`. -/
  bundle : Files
  home : String
  folder : String
  runner : String
  clock : Clock
  runId : String
  /-- When the files were last changed, by path, in seconds since the start of 1970. -/
  times : String → Int
  program : String := ""
  printed : List String := []

namespace Desk

def output (d : Desk) : String :=
  String.join d.printed.reverse

def filesAt (d : Desk) (path : String) : Files :=
  if startsWith path (d.home ++ "/") then d.bundle else d.files

def changeAt (d : Desk) (path : String) (f : Files → Except Error Files) : Except Error Desk := do
  if startsWith path (d.home ++ "/") then pure { d with bundle := ← f d.bundle }
  else pure { d with files := ← f d.files }

end Desk

inductive Stop where
  | failed (e : Error)
  | exit (code : Int)

abbrev Command := ExceptT Stop (StateM Desk)

namespace Command

def fail (e : Error) : Command α :=
  throw (.failed e)

def exit (code : Int) : Command α :=
  throw (.exit code)

def ofExcept (r : Except Error α) : Command α :=
  match r with
  | .ok a => pure a
  | .error e => fail e

instance : MonadLift (Except Error) Command := ⟨ofExcept⟩

def emit (text : String) : Command Unit :=
  if text.isEmpty then pure () else modify fun d => { d with printed := text :: d.printed }

def print (line : String) : Command Unit :=
  emit (line ++ "\n")

def printValue (v : Value) : Command Unit := do
  print (← v.shown)

def ofPrinted (p : Printed α) : Command α := do
  emit p.output
  p.result

/-- The outcome of a command that may fail. What it did is kept, and an exit stays
    an exit. -/
def attempt (c : Command α) : Command (Except Error α) :=
  tryCatch (do pure (.ok (← c))) fun stop =>
    match stop with
    | .failed e => pure (.error e)
    | .exit code => throw (.exit code)

def refuse (r : Refusal) : Command α := do
  match r with
  | .misuse => exit 2
  | .helpAsked u =>
    let d ← get
    emit (u.help (if u.program.isEmpty then d.program else u.program))
    exit 0

def arguments (u : Usage) (words : List String) : Command Arguments :=
  match u.read words with
  | .ok a => pure a
  | .error r => refuse r

def directory : Command Files := do
  pure (← get).files

def readText (path : String) : Command String := do
  ((← get).filesAt path).read path

def readJson (path : String) : Command Value := do
  ((← get).filesAt path).readJson path

def pathExists (path : String) : Command Bool := do
  ((← get).filesAt path).checkExists path

def isFile (path : String) : Command Bool := do
  ((← get).filesAt path).checkFile path

def change (path : String) (f : Files → Except Error Files) : Command Unit := do
  set (← (← get).changeAt path f)

def save (path text : String) : Command Unit :=
  change path (·.save path text)

def makeFolder (path : String) : Command Unit :=
  change path (·.makeFolder path)

end Command

end Loom
