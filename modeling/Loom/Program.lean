import Loom.Digest
import Loom.Module
import Loom.Overlay.Packs
import Loom.Session.Run

/-!
# Running Programs

From the text of an outline to a result: the text is read, the packs are loaded,
the module is expanded and run. A run gives its result and its receipt, and what
it printed whether or not it failed.
-/

namespace Loom

open Loom.Text

structure Settings where
  overlays : List String := []
  noUnknownVerbs : Bool := false
  enforce : Bool := false
  granted : List Value := []
  /-- What the addresses that a run fetches answer. -/
  network : Web.Network := []

def Settings.options (s : Settings) : Overlay.Options :=
  ⟨s.noUnknownVerbs, s.enforce, s.granted⟩

structure Printed (α : Type) where
  result : Except Error α
  output : String

namespace Program

/-- Modules that are nested more deeply are not expanded. -/
def depthLimit : Nat := 494

def prepare (files : Files) (settings : Settings) (m : Value) :
    Except Error (Overlay.Warned Value) := do
  let table ← Overlay.load files settings.overlays
  if m.depth > depthLimit then throw .tooDeep
  else Overlay.expandModule table settings.options m

def loadedPacks (names : List String) : List String :=
  ("core" :: names.filter fun n => n != "" && n != "core").eraseDups

def withPacks (receipt : Receipt) (names : List String) (warnings : List String) : Value :=
  let notes := warnings.map fun w => Value.obj
    [("level", .str "warning"), ("event", .str "overlay"), ("message", .str w)]
  ({ receipt with logs := receipt.logs ++ notes }.toValue).setField "overlaysLoaded"
    (.list ((loadedPacks names).map .str))

def session (settings : Settings) : Session :=
  Session.start .null settings.enforce [] settings.network

def runExpanded (settings : Settings) (m inputs : Value) (warnings : List String) :
    Printed (Value × Value) :=
  let (result, s) := (session settings).run (Run.runModule m inputs none none)
  ⟨result.map fun v => (v, withPacks s.receipt settings.overlays warnings), s.output⟩

def run (files : Files) (text : String) (inputs : Value) (settings : Settings) :
    Printed (Value × Value) :=
  match (do prepare files settings (← Module.ofText text) : Except Error _) with
  | .error e => ⟨.error e, ""⟩
  | .ok (m, warnings) => runExpanded settings m inputs warnings

def runFile (files : Files) (path : String) (inputs : Value) (settings : Settings) :
    Printed (Value × Value) :=
  match files.read path with
  | .error e => ⟨.error e, ""⟩
  | .ok text => run files text inputs settings

structure TestCase where
  name : Value
  inputs : Fields Value
  expected : Value

def TestCase.ofValue (number : Nat) (v : Value) : Except Error TestCase := do
  let name ← v.lookup "name"
  let inputs ← (v.field "inputs").toFieldsOrNone
  pure ⟨name.orElse (.str ("test-" ++ Decimal.showInt number)), inputs,
    v.fieldD "expected" (v.field "expect")⟩

def runTest (settings : Settings) (m : Value) (warnings : List String) (t : TestCase) :
    Printed (Bool × Value) :=
  let p := runExpanded settings m (.obj t.inputs) warnings
  ⟨p.result.map fun (actual, receipt) =>
    let pass := actual.same t.expected
    (pass, .obj [("name", t.name), ("inputs", .obj t.inputs), ("expected", t.expected),
      ("actual", actual), ("pass", pass), ("receipt", receipt)]), p.output⟩

/-- Run tests one after the other. Warnings are told with the first. -/
def runCases (settings : Settings) (m : Value) (warnings : List String) (number : Nat) :
    List Value → Printed (List (Bool × Value))
  | [] => ⟨.ok [], ""⟩
  | v :: rest =>
    match TestCase.ofValue number v with
    | .error e => ⟨.error e, ""⟩
    | .ok t =>
      let p := runTest settings m (if number == 1 then warnings else []) t
      match p.result with
      | .error e => ⟨.error e, p.output⟩
      | .ok report =>
        let others := runCases settings m warnings (number + 1) rest
        ⟨others.result.map (report :: ·), p.output ++ others.output⟩

def runTests (files : Files) (text : String) (settings : Settings) :
    Printed (Nat × Nat × List Value) :=
  let prepared : Except Error (Value × List String × List Value) := do
    let (m, warnings) ← prepare files settings (← Module.ofText text)
    let tests ← ((← m.lookup "tests").orElse (.list [])).items
    pure (m, warnings, tests)
  match prepared with
  | .error e => ⟨.error e, ""⟩
  | .ok (m, warnings, tests) =>
    let p := runCases settings m warnings 1 tests
    ⟨p.result.map fun reports =>
      ((reports.filter Prod.fst).length, tests.length, reports.map Prod.snd), p.output⟩

structure Source where
  text : String
  path : Option String

/-- A text of one line that names a file stands for the file. -/
def readSource (files : Files) (text : String) : Except Error Source := do
  if text.contains '\n' || text.contains '\r' then pure ⟨text, none⟩
  else if ← files.checkExists text then pure ⟨← files.read (Path.tidy text), some (Path.tidy text)⟩
  else pure ⟨text, none⟩

def Source.fields (s : Source) : Fields Value :=
  let hash : Value := .str ("sha256:" ++ Digest.sha256 (utf8 s.text))
  match s.path with
  | some path => [("name", Path.base path), ("path", path), ("hash", hash),
      ("astVersion", "2.1.0")]
  | none => [("hash", hash)]

/-- A broken rule of the language counts as a fault of the types of the program. -/
def typedError : Error → Error
  | .run e => .typed e
  | e => e

def machineAnswer (source : Source) : Except Error (Value × Value) → Except Error (Value × Value)
  | .ok (v, receipt) =>
    .ok (v, (receipt.setField "engine" "vm").setField "module" (.obj source.fields))
  | .error e => .error (typedError e)

def runMachine (files : Files) (text : String) (inputs : Value) (settings : Settings) :
    Printed (Value × Value) :=
  match (do
    let source ← readSource files text
    let m ← Module.ofText source.text
    pure (source, ← prepare files settings m) : Except Error _) with
  | .error e => ⟨.error e, ""⟩
  | .ok (source, m, warnings) =>
    let p := runExpanded settings m inputs warnings
    ⟨machineAnswer source p.result, p.output⟩

end Program

end Loom
