import Loom.Slug
import Loom.Text.Pattern
import Loom.Value.Access

/-!
# Calls in Plain Form

Steps write calls in several ways: by the name of a module, by an operation, by
an address. The schema knows one form only, a module with its inputs and the name
of the result. In plain form every call of a document is written that way, and
everything else stays as it is.
-/

namespace Loom.Document

def callTarget (args : Fields Value) : Value :=
  let named := args.getD "module" .null
  if named.truthy then named
  else
    match args.get? "op" with
    | some op => .str ("op:" ++ op.display)
    | none => .str (if args.has "url" then "url" else "call")

/-- The field under which the name of the result travels among the inputs. -/
def resultMark : String := "__result__"

def addInput (inputs : Fields Value) (name : String) (v : Value) : Fields Value :=
  if name == "module" || name == "inputs" || name == "result" then inputs
  else if name == "into" && v.isStr then inputs.putNew resultMark v
  else inputs.put name v

/-- The arguments of a call in plain form. A call that has a module and inputs is
    in plain form already. -/
def plainCall (args : Fields Value) : Fields Value :=
  if args.has "module" && args.has "inputs" then args
  else
    let inputs := args.foldl (fun acc a => addInput acc a.1 a.2) []
    let result := (inputs.getD resultMark .null).orElse (args.getD "result" .null)
    let plain := [("module", callTarget args), ("inputs", .obj (inputs.erase resultMark))]
    if result.isStr then plain ++ [("result", result)] else plain

/-- An argument with the steps inside it changed by `inner`. -/
def mapInner (inner : Value → Except Error Value) (name : String) (v : Value) :
    Except Error Value := do
  match name, v with
  | "block", .obj fs =>
    let steps ← (Fields.getD fs "steps" (.list [])).items
    pure (.obj (Fields.put fs "steps" (.list (← steps.mapM inner))))
  | "steps", .list xs => pure (.list (← xs.mapM inner))
  | _, v => pure v

def plainStepWithin : Nat → Value → Except Error Value
  | 0, v => .ok v
  | depth + 1, v => do
    match ← v.lookup "args" with
    | .obj args =>
      let called := if (v.field "verb").isText "Call" then plainCall args else args
      let inside ← called.mapM fun a => do
        pure (a.1, ← mapInner (plainStepWithin depth) a.1 a.2)
      pure (v.setField "args" (.obj inside))
    | _ => pure v

def plainStep (v : Value) : Except Error Value :=
  plainStepWithin (v.depth + 1) v

def plainFlow (m : Value) : Except Error Value := do
  match ← m.lookup "flow" with
  | .list steps => pure (m.setField "flow" (.list (← steps.mapM plainStep)))
  | _ => pure m

def plainModule (m : Value) : Except Error Value := do
  let m ← plainFlow m
  match ← m.lookup "module" with
  | .obj inner => pure (m.setField "module" (← plainFlow (.obj inner)))
  | _ => pure m

def plainModules (doc : Value) : Except Error Value := do
  let doc := doc.orElse (.obj [])
  match ← doc.lookup "modules" with
  | .list ms => pure (doc.setField "modules" (.list (← ms.mapM plainModule)))
  | _ => pure doc

open Loom.Text Loom.Text.Pattern

/-!
### Normal Form of Programs

Authors may write an input or an output as `name (Sort)` and an example as a bare
text. In normal form each is an object.

The schema of capabilities asks for rules, resources and the name of the program,
which a document of capabilities need not tell; what it does not tell is filled in.
-/

def isNameStart (c : Char) : Bool :=
  ('A' ≤ c && c ≤ 'Z') || ('a' ≤ c && c ≤ 'z') || c == '_'

def isNameChar (c : Char) : Bool :=
  isNameStart c || ('0' ≤ c && c ≤ '9')

def shorthand : Pattern :=
  gap ++ named "name" (one isNameStart ++ many isNameChar) ++ gap ++ text "(" ++
    named "sort" (many1 (· != ')')) ++ text ")" ++ gap ++ finish

/-- An input or output in normal form. What is neither a text nor an object is
    none. -/
def normalDeclaration? (v : Value) : Option Value :=
  match v with
  | .str s =>
    match shorthand.match? s with
    | some m => some (.obj [("name", m.group "name"), ("resultType", m.group "sort")])
    | none => some (.obj [("name", v)])
  | .obj _ => some v
  | _ => none

def normalDeclarations (items : List Value) : List Value :=
  items.filterMap normalDeclaration?

def normalExample (v : Value) : Value :=
  if v.isStr then .obj [("description", v)] else v

def mapList (f : List Value → List Value) (name : String) (fs : Fields Value) : Fields Value :=
  match fs.get? name with
  | some (.list xs) => fs.put name (.list (f xs))
  | _ => fs

def normalModule (v : Value) : Except Error Value := do
  let fs ← v.toFieldsOrNone
  pure (.obj (mapList (·.map normalExample) "examples"
    (mapList normalDeclarations "outputs" (mapList normalDeclarations "inputs" fs))))

def normalProgram (v : Value) : Except Error Value := do
  let fs ← v.toFieldsOrNone
  let modules ← ((fs.getD "modules" .null).orElse (.list [])).items
  pure (.obj (fs.put "modules" (.list (← modules.mapM normalModule))))

def grants (caps : Value) (name : String) : Bool :=
  (caps.field name).truthy

def openRule : Value :=
  .obj [("from", "*"), ("to", "*"), ("allow", .list [.str "Call"])]

def fullCapabilities (program caps : Value) : Except Error Value := do
  let root := caps.orElse (.obj [])
  let listed := root.field "capabilities"
  let rules := match root.field "rules" with
    | .list (r :: rs) => .list (r :: rs)
    | _ => .list [openRule]
  let named := root.field "programName"
  let name ← if named.isStr && named.truthy then pure named
    else do pure (.str (← program.lookupD "name" "").display)
  pure (.obj [("type", ← root.lookupD "type" "Capabilities"), ("programName", name),
    ("rules", rules),
    ("resources", .obj [("net", .bool (grants listed "network:fetch")),
      ("fs", .bool (grants listed "fs"))])])

/-!
### Validating a Program

A program and its modules are joined and brought to normal form, and what is wrong
with them is collected: errors, warnings and notes. Modules are called by slug, so
names with the same slug collide.
-/

structure Findings where
  errors : List String := []
  warnings : List String := []
  notes : List String := []

namespace Findings

def append (a b : Findings) : Findings :=
  ⟨a.errors ++ b.errors, a.warnings ++ b.warnings, a.notes ++ b.notes⟩

instance : Append Findings := ⟨append⟩

def isClean (f : Findings) : Bool :=
  f.errors.isEmpty && f.warnings.isEmpty && f.notes.isEmpty

def lines (f : Findings) : List String :=
  if f.isClean then []
  else
    ("VALIDATION: " ++ if f.errors.isEmpty then "WARNINGS/INFO" else "ERRORS") ::
      (f.errors ++ f.warnings ++ f.notes).map (" - " ++ ·)

end Findings

def joined (program modules : Value) : Except Error Value := do
  let plain ← plainModules modules
  let fs ← program.toFields
  normalProgram (.obj (fs.put "modules" ((plain.field "modules").orElse (.list []))))

/-- The names of modules up to the first that is no text, and what is wrong with
    it. Modules without a name have none. -/
def namesOf : List Value → List String × Option Error
  | [] => ([], none)
  | m :: rest =>
    match ((m.field "name").orElse "").toText "strip" with
    | .error e => ([], some e)
    | .ok name =>
      let (names, e) := namesOf rest
      if (strip name).isEmpty then (names, e) else (strip name :: names, e)

def slugNote? (name : String) : Option String :=
  if slug name == name then none
  else some ("[name-normalization] Module '" ++ name ++ "' normalizes to '" ++ slug name ++ "'")

def collision? (names : List String) (s : String) : Option String :=
  let same := names.filter fun n => slug n == s
  if same.length > 1 then
    let shown := join ", " (same.eraseDups.mergeSort fun a b => decide (a ≤ b))
    some ("[name-collision] " ++ shown ++ " -> '" ++ s ++ "'")
  else none

def nameFindings (modules : List Value) : Findings :=
  let (names, failure) := namesOf modules
  { notes := names.filterMap slugNote?
    warnings := match failure with
      | some e => ["[name-normalization] internal warning: " ++ e.message]
      | none => (names.map slug).eraseDups.filterMap (collision? names) }

def partFindings (program : Value) : Findings where
  errors := (if (program.field "name").truthy then [] else ["Program.name missing"]) ++
    if (program.field "modules").truthy then [] else ["Program.modules empty (combined)"]

def programFindings (program : Value) : Findings :=
  nameFindings (((program.field "modules").list?).getD []) ++ partFindings program

end Loom.Document
