import Loom.Command.Interpret
import Loom.Document.Validation

/-!
# Validating

The command that checks a program document against its modules and prints what it
finds. Packs are expanded first; if that fails, the modules are checked as they
are.
-/

namespace Loom.Command

open Loom.Document

namespace Validate

def usage : Usage where
  choices := [(Choice.value "--program" "PROGRAM" "Program JSON").needed,
    (Choice.value "--modules" "MODULES" "Modules JSON").needed,
    .value "--capabilities" "CAPABILITIES" "Capabilities JSON",
    .flag "--strict" "nonzero exit on schema/logic errors",
    .flag "--warnings-as-errors" "treat warnings as errors (nonzero exit)"] ++ overlayChoices

/-- The program and the modules. Capabilities are read too, if there are any, so
    that a document that cannot be read is noticed. -/
def readDocuments (a : Arguments) : Command (Value × Value) := do
  let program ← readJson (Path.tidy ((a.value? "--program").getD ""))
  let modules ← readJson (Path.tidy ((a.value? "--modules").getD ""))
  if let some path := Interpret.pathOf? a "--capabilities" then
    if ← pathExists (Path.tidy path) then
      let _ ← readJson (Path.tidy path)
  pure (program, modules)

/-- The modules under packs, and what there is to say about that. -/
def expanded (files : Files) (settings : Settings) (modules : Value) : Value × Findings :=
  let result := do
    let table ← Overlay.load files settings.overlays
    Overlay.expandDocument table settings.options modules
  match result with
  | .ok (doc, warnings) => (doc, { warnings := warnings.map ("[overlay] " ++ ·) })
  | .error e => (modules, { errors := ["Overlay expansion failed: " ++ e.message] })

/-- Documents are checked against schemas by a tool that need not be there. -/
def schemaFindings : Findings where
  notes := ["jsonschema not installed; run: pip install jsonschema"]

end Validate

open Validate in
def validate (words : List String) : Command Int := do
  let a ← arguments usage words
  match ← attempt (readDocuments a) with
  | .error e =>
    print ("Failed to read input JSON: " ++ e.message)
    pure 2
  | .ok (program, modules) =>
    let (modules, expansion) := expanded (← directory) (Interpret.settingsOf a) modules
    let whole ← joined program modules
    let found := programFindings whole
    let findings : Findings :=
      { errors := expansion.errors ++ found.errors
        warnings := found.warnings ++ expansion.warnings
        notes := found.notes } ++ schemaFindings
    for line in findings.lines do print line
    let warned := a.has "--warnings-as-errors" &&
      !(findings.warnings.isEmpty && findings.notes.isEmpty)
    pure (if findings.errors.isEmpty && !warned then 0 else 1)

end Loom.Command
