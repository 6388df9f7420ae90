import Loom.Program
import Loom.Proofs.Fields
import Loom.Proofs.Text

/-!
# Two Ways to Run a Program

An outline runs from a file or is handed to the machine as text. Each way reads,
expands and runs the outline by itself and writes its own receipt, and the machine
counts broken rules of the language as faults of types. On a text of more than one
line, the two agree in everything but that.

A file is read with plain line ends, and a text of one line may stand for a file,
so the text has to have a line end and only plain ones.
-/

namespace Loom

open Loom.Text

namespace Program

def sharedFields : List String := ["ask", "callGraph", "env", "logs", "steps", "overlaysLoaded"]

/-- The answers that belong together, of a file and of the machine, when a module
    was run: the same result with receipts that agree, or the same fault, where a
    broken rule of the language has become a fault of types. -/
inductive Corresponds : Except Error (Value × Value) → Except Error (Value × Value) → Prop
  | finished (v receipt receipt' : Value)
      (told : ∀ name ∈ sharedFields, (receipt.field? name).isSome)
      (same : ∀ name ∈ sharedFields, receipt'.field? name = receipt.field? name) :
      Corresponds (.ok (v, receipt)) (.ok (v, receipt'))
  | broken (e : RunError) : Corresponds (.error (.run e)) (.error (.typed e))
  | failed (e : Error) (other : ∀ rule, e ≠ .run rule) : Corresponds (.error e) (.error e)

/-- The runs of a file and of the machine agree, where both start from the same
    module: they print the same, and either there is no module to run and both tell
    why, or the answers correspond. -/
def Agree (prepared : Except Error (Overlay.Warned Value))
    (onFile onMachine : Printed (Value × Value)) : Prop :=
  onMachine.output = onFile.output ∧ match prepared with
    | .error e => onFile.result = .error e ∧ onMachine.result = .error e
    | .ok _ => Corresponds onFile.result onMachine.result ∧ ∀ e, onFile.result = .error e →
          ∃ e', onMachine.result = .error e' ∧ e'.message = e.message

theorem readSource_of_lines (files : Files) {text : String} (h : '\n' ∈ text.toList) :
    readSource files text = .ok ⟨text, none⟩ := by
  have hlines : text.contains '\n' := by rwa [String.contains_char_eq, decide_eq_true_eq]
  rw [readSource, hlines]
  rfl

theorem isSome_field?_withPacks (receipt : Receipt) (names warnings : List String) :
    ∀ name ∈ sharedFields, ((withPacks receipt names warnings).field? name).isSome := by
  intro name hname
  simp only [sharedFields, List.mem_cons, List.not_mem_nil, or_false] at hname
  rcases hname with rfl | rfl | rfl | rfl | rfl | rfl <;> rfl

theorem field?_machineReceipt (receipt : Value) (source : Source) :
    ∀ name ∈ sharedFields, ((receipt.setField "engine" (.str "vm")).setField "module"
      (.obj source.fields)).field? name = receipt.field? name := by
  intro name hname
  have hengine : "engine" ≠ name := by
    rintro rfl
    exact absurd hname (by decide)
  have hmodule : "module" ≠ name := by
    rintro rfl
    exact absurd hname (by decide)
  rw [Value.field?_setField_of_ne _ hmodule, Value.field?_setField_of_ne _ hengine]

theorem corresponds_machineAnswer (settings : Settings) (source : Source) (m inputs : Value)
    (warnings : List String) : Corresponds (runExpanded settings m inputs warnings).result
      (machineAnswer source (runExpanded settings m inputs warnings).result) := by
  rw [runExpanded]
  rcases (session settings).run (Run.runModule m inputs none none) with ⟨e | v, s⟩
  · cases e with
    | run rule => exact .broken rule
    | _ => exact .failed _ (fun rule => Error.noConfusion)
  · exact .finished v _ _ (isSome_field?_withPacks s.receipt settings.overlays warnings)
      (field?_machineReceipt _ source)

theorem runFile_of_text {files : Files} {path text : String} (hfile : files.text? path = some text)
    (hplain : '\r' ∉ text.toList) (inputs : Value) (settings : Settings) :
    runFile files path inputs settings = run files text inputs settings := by
  rw [runFile, Files.read, hfile]
  dsimp only
  rw [readLines_of_plain hplain]

theorem Corresponds.message {a b : Except Error (Value × Value)} (h : Corresponds a b) {e : Error}
    (ha : a = .error e) : ∃ e', b = .error e' ∧ e'.message = e.message := by
  cases h with
  | finished => cases ha
  | broken rule =>
    rw [← Except.error.inj ha]
    exact ⟨.typed rule, rfl, rfl⟩
  | failed e' => exact ⟨e', rfl, by rw [Except.error.inj ha]⟩

theorem runMachine_of_lines (files : Files) {text : String} (h : '\n' ∈ text.toList)
    (inputs : Value) (settings : Settings) : runMachine files text inputs settings =
      match Module.ofText text >>= prepare files settings with
      | .error e => ⟨.error e, ""⟩
      | .ok (m, warnings) =>
        let p := runExpanded settings m inputs warnings
        ⟨machineAnswer ⟨text, none⟩ p.result, p.output⟩ := by
  rw [runMachine, readSource_of_lines files h]
  cases hread : Module.ofText text with
  | error e => simp only [bind, Except.bind, hread]
  | ok m =>
    cases hprepared : prepare files settings m with
    | error e => simp only [bind, Except.bind, hread, hprepared]
    | ok expanded => simp only [bind, Except.bind, pure, Except.pure, hread, hprepared]

/-- A text of several lines handed to the machine and a file that holds it give
    runs that agree. -/
theorem runMachine_agrees_runFile {files : Files} {path text : String}
    (hfile : files.text? path = some text) (hline : '\n' ∈ text.toList)
    (hplain : '\r' ∉ text.toList) (inputs : Value) (overlays : List String)
    (noUnknownVerbs enforce : Bool) (network : Web.Network) :
    let settings : Settings := { overlays, noUnknownVerbs, enforce, network }
    Agree (Module.ofText text >>= prepare files settings)
      (runFile files path inputs settings) (runMachine files text inputs settings) := by
  intro settings
  rw [runFile_of_text hfile hplain, runMachine_of_lines files hline, run]
  -- both ways get to the same expanded module, or stop at the same error
  cases Module.ofText text >>= prepare files settings with
  | error e => exact ⟨rfl, rfl, rfl⟩
  | ok expanded =>
    obtain ⟨m, warnings⟩ := expanded
    have hcorresponds := corresponds_machineAnswer settings ⟨text, none⟩ m inputs warnings
    exact ⟨rfl, hcorresponds, fun e he => hcorresponds.message he⟩

/-- An outline whose run prints a line and then breaks a rule of the language. -/
def brokenOutline : String := "I. Module: Signs\nD. Flow\n  1. Show \"before\"\n  2. Return -word\n"

theorem runMachine_agrees_runFile_broken :
    let files := Overlay.withPacks { texts := [("signs.loom", brokenOutline)], folders := [] }
    let settings : Settings := { overlays := ["core"], noUnknownVerbs := true, enforce := true }
    let inputs : Value := .obj [("word", .str "a")]
    (files.text? "./signs.loom" = some brokenOutline ∧
      '\n' ∈ brokenOutline.toList ∧ '\r' ∉ brokenOutline.toList) ∧
      Agree (Module.ofText brokenOutline >>= prepare files settings)
        (runFile files "./signs.loom" inputs settings)
        (runMachine files brokenOutline inputs settings) := by
  intro files settings inputs
  have hfile : files.text? "./signs.loom" = some brokenOutline := by decide +kernel
  have hline : '\n' ∈ brokenOutline.toList := by decide +kernel
  have hplain : '\r' ∉ brokenOutline.toList := by decide +kernel
  exact ⟨⟨hfile, hline, hplain⟩,
    runMachine_agrees_runFile hfile hline hplain inputs ["core"] true true []⟩

end Program

end Loom
