import Loom.Text.Slice
import Loom.Value.Basic

/-!
# References between Schemas

The schema of a program refers to the schema of a module, which is a document of
its own. Both are joined in one document before use, so that nothing has to be
looked up: the names under which schemas are published are dropped, and every
reference to the schema of modules becomes one into the joined document.
-/

namespace Loom.Schema

open Loom.Text

mutual

def withoutIds : Value → Value
  | .list xs => .list (itemsWithoutIds xs)
  | .obj fs => .obj (fieldsWithoutIds fs)
  | v => v

def itemsWithoutIds : List Value → List Value
  | [] => []
  | v :: rest => withoutIds v :: itemsWithoutIds rest

def fieldsWithoutIds : List (String × Value) → List (String × Value)
  | [] => []
  | (k, v) :: rest =>
    if k == "$id" then fieldsWithoutIds rest else (k, withoutIds v) :: fieldsWithoutIds rest

end

def mapRef (f : String → String) (name : String) (s : String) : Value :=
  .str (if name == "$ref" then f s else s)

mutual

def mapRefs (f : String → String) : Value → Value
  | .list xs => .list (mapItemRefs f xs)
  | .obj fs => .obj (mapFieldRefs f fs)
  | v => v

def mapItemRefs (f : String → String) : List Value → List Value
  | [] => []
  | v :: rest => mapRefs f v :: mapItemRefs f rest

def mapFieldRefs (f : String → String) : List (String × Value) → List (String × Value)
  | [] => []
  | (k, .str s) :: rest => (k, mapRef f k s) :: mapFieldRefs f rest
  | (k, v) :: rest => (k, mapRefs f v) :: mapFieldRefs f rest

end

/-- Where the schema of modules stands once it is embedded. -/
def modulePlace : String := "#/$defs/Module"

/-- A reference inside the schema of modules, once it is embedded. -/
def embeddedRef (ref : String) : String :=
  if startsWith ref "#/" then replace ref "#/" (modulePlace ++ "/") else ref

def embedded (schema : Value) : Value :=
  mapRefs embeddedRef schema

def moduleDocument : String := "loom-module.schema.json"

/-- A reference to the document of modules, or into it, as one into the schema
    that embeds it. -/
def insideRef (ref : String) : String :=
  if !contains ref moduleDocument then ref
  else
    match partition ref "#" with
    | (_, none) => modulePlace
    | (_, some "") => modulePlace
    | (_, some place) =>
      modulePlace ++ "/" ++ String.ofList (place.toList.dropWhile (· == '/'))

def referringInside (schema : Value) : Value :=
  mapRefs insideRef schema

def texts (ss : List String) : Value := .list (ss.map .str)

def typed (type : String) (more : Fields Value := []) : Value :=
  .obj (("type", type) :: more)

def openness (isOpen : Bool) : String × Value := ("additionalProperties", isOpen)

def refTo (name : String) : Value := .obj [("$ref", ("#/$defs/" ++ name))]

def listOf (name : String) (more : Fields Value := []) : Value :=
  typed "array" (("items", refTo name) :: more)

def criteriaSchema : Value :=
  typed "array" [("items", typed "string"), ("default", .list [])]

def examplesSchema : Value :=
  typed "array" [
    ("items", typed "object" [("properties", .obj [("description", typed "string")]), openness true]),
    ("default", .list [])]

/-- The pattern of names with blanks allowed in them. -/
def spacedPattern (pattern : String) : String :=
  replace (replace pattern "[A-Za-z0-9_\\-]\x7b0,127\x7d" "[A-Za-z0-9_\\- ]\x7b0,127\x7d")
    "[A-Za-z0-9_\\\\-]\x7b0,127\x7d" "[A-Za-z0-9_\\\\- ]\x7b0,127\x7d"

/-- The properties of a module as they are written by authors: criteria and
    examples are known, and names may have blanks. -/
def authoredProperties (properties : Fields Value) : Fields Value :=
  let all := (properties.putNew "successCriteria" criteriaSchema).putNew "examples" examplesSchema
  match all.get? "name" with
  | some (.obj fs) =>
    match Fields.get? fs "pattern" with
    | some (.str p) => all.put "name" (.obj (Fields.put fs "pattern" (.str (spacedPattern p))))
    | _ => all
  | _ => all

def readied (schema : Value) : Value :=
  let properties := ((schema.field "properties").obj?).getD []
  embedded (withoutIds (schema.setField "properties" (.obj (authoredProperties properties))))

/-!
### The Schema of Modules

What a module document has to look like, as a schema: its sections, and under
`$defs` the shapes of inputs, outputs, expressions, branches, steps and tests.
-/

def resultTypes : Value :=
  typed "string" [("enum", texts [
    "Text", "Number", "Yes/No", "List", "Record", "Optional", "File", "Image", "Video", "Audio",
    "Document", "Dataset", "Visualization", "Scene", "Script", "Chapter", "Character", "Arc", "Plot",
    "Plan", "Instruction", "Story", "Poem", "Song", "Lyric", "Summary", "Outline", "Workflow",
    "Report", "Log", "Receipt", "Recommendation", "Schedule", "Profile", "Configuration", "Any"])]

def declarationShape : Value :=
  typed "object" [openness false, ("required", texts ["name", "resultType"]),
    ("properties", .obj [("name", typed "string"), ("resultType", refTo "ResultType")])]

def exprShape : Value :=
  .obj [
    ("description", ("Loose JSON value used for expressions/values; " ++
      "accepts Loom expr AST nodes")),
    ("anyOf", .list [typed "null", typed "boolean", typed "number", typed "string", listOf "Expr",
      typed "object" [("additionalProperties", refTo "Expr")]])]

/-- One of two ways to write a branch: with the first name, not with the second. -/
def branchForm (has lacks : String) : Value :=
  .obj [("required", texts [has, "steps"]), ("not", .obj [("required", texts [lacks])])]

def branchShape : Value :=
  typed "object" [openness false,
    ("properties", .obj [("when", refTo "Expr"),
      ("otherwise", typed "boolean" [("const", true)]),
      ("steps", listOf "Step" [("minItems", .int 1)])]),
    ("oneOf", .list [branchForm "when" "otherwise", branchForm "otherwise" "when"])]

/-- What holds of steps with a verb, and of their arguments. -/
def verbShape (verb : String) (needs : List String) (args : Fields Value) : Value :=
  .obj [
    ("if", .obj [("properties", .obj [("verb", .obj [("const", verb)])]),
      ("required", texts ["verb"])]),
    ("then", .obj [("properties", .obj [("args", typed "object" args)]), ("required", texts needs)])]

def stepShape : Value :=
  typed "object" [("required", texts ["verb"]),
    ("properties", .obj [
      ("verb", .obj [("enum", texts ["Make", "Show", "Check", "Try", "Choose", "Repeat", "Ask",
        "Return", "Remember", "Forget", "Call"])]),
      ("args", typed "object"), ("steps", listOf "Step")]),
    openness true,
    ("allOf", .list [
      verbShape "Choose" ["args"] [("required", texts ["branches"]),
        ("properties", .obj [("branches", typed "array" [("minItems", .int 1),
          ("items", refTo "ChooseBranch")])]),
        openness false],
      verbShape "Repeat" ["steps", "args"] [("required", texts ["iterator", "iterable"]),
        ("properties", .obj [("iterator", refTo "Expr"), ("iterable", refTo "Expr")])],
      verbShape "Call" ["args"] [
        ("properties", .obj [("module", typed "string" [("minLength", .int 1)]),
          ("inputs", typed "object"), ("result", typed "string")]),
        ("required", texts ["module", "inputs"]), openness false]])]

def testShape : Value :=
  typed "object" [("required", texts ["input", "expectedOutput"]),
    ("properties", .obj [("input", typed "object"), ("expectedOutput", .obj [])]), openness false]

def moduleProperties : Value :=
  .obj [
    ("type", .obj [("const", "Module"), ("description", "Must be 'Module'")]),
    ("name", typed "string" [
      ("pattern", ("^(?!.*\\b(Thing|Stuff|Whatever|Info|Data)\\b)" ++
        "[A-Za-z_][A-Za-z0-9_\\-]\x7b0,127\x7d$")),
      ("description", "Module identifier (forbidden terms disallowed)")]),
    ("purpose", typed "string"),
    ("inputs", listOf "Input" [("default", .list [])]),
    ("outputs", listOf "Output" [("default", .list [])]),
    ("flow", listOf "Step" [("minItems", .int 1)]),
    ("tests", listOf "Test" [("default", .list [])]),
    ("version", typed "string" [("pattern", "^\\d+\\.\\d+$"),
      ("description", "MAJOR.MINOR")]),
    ("astVersion", typed "string" [
      ("description", "SemVer of the canonical AST contract"),
      ("pattern", ("^(0|[1-9]\\d*)\\.(0|[1-9]\\d*)\\.(0|[1-9]\\d*)" ++
        "(?:-[0-9A-Za-z-.]+)?(?:\\+[0-9A-Za-z-.]+)?$"))])]

def moduleShape : Value :=
  .obj [
    ("$schema", "https://json-schema.org/draft/2020-12/schema"),
    ("$id", "https://example.com/schemas/loom-module.schema.json"),
    ("title", "Loom Module (AST v2.1.0)"), ("type", "object"), openness false,
    ("required", texts ["type", "name", "flow", "version", "astVersion"]),
    ("properties", moduleProperties),
    ("$defs", .obj [("ResultType", resultTypes), ("Input", declarationShape),
      ("Output", declarationShape), ("Expr", exprShape), ("ChooseBranch", branchShape),
      ("Step", stepShape), ("Test", testShape)])]

def moduleSchema : Value :=
  readied moduleShape

end Loom.Schema
