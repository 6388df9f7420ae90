import Loom.Error
import Loom.Text.Pattern

/-!
# Sections of an Agent

The outline of an agent has a cover, with its name and its purpose, and modules
under Roman numerals. A module has lettered sections, each with a list of lines.
Whatever stands before the first header on its level is passed over.
-/

namespace Loom.Agent

open Loom.Text Loom.Text.Pattern

def isRoman (c : Char) : Bool :=
  ['i', 'v', 'x', 'l', 'c', 'm'].any (sameLetter · c)

/-- A Roman numeral and a name that ends in the word for a module. -/
def moduleHeader : Pattern :=
  gap ++ many1 isRoman ++ chr '.' ++ space ++
    named "name" (few1 onLine ++ edge ++ word "module") ++ gap ++ finish

def sectionHeader : Pattern :=
  gap ++ one (fun c => 'A' ≤ c && c ≤ 'Z') ++ gap ++ one (fun c => c == '.' || c == ')') ++ space ++
    named "title" (few1 onLine) ++ gap ++ optional (chr ':') ++ gap ++ finish

def listMark : Pattern :=
  start ++ gap ++ oneOf [one (fun c => c == '-' || c == '*'),
    many1 isDigit ++ one (fun c => c == '.' || c == ')')] ++ gap

def dropListMark (s : String) : String :=
  listMark.replaceAll (fun _ => "") (strip s)

def moduleName? (line : String) : Option String :=
  (moduleHeader.match? line).map fun m => strip (m.group "name")

def sectionTitle? (line : String) : Option String :=
  (sectionHeader.match? line).map fun m => strip (m.group "title")

def groups (header? : String → Option α) : List String → List String × List (α × List String)
  | [] => ([], [])
  | line :: rest =>
    let (before, others) := groups header? rest
    match header? line with
    | some h => ([], (h, before) :: others)
    | none => (line :: before, others)

/-- The items of a list: its lines that are not blank, without their marks. -/
def listItems (lines : List String) : List String :=
  (lines.map strip).filter (!·.isEmpty) |>.map dropListMark

def nameLine : Pattern :=
  gap ++ word "agent" ++ space ++ word "name:" ++ gap ++ named "name" (few1 onLine) ++ gap ++ finish

def purposeLine : Pattern :=
  gap ++ word "agent" ++ space ++ word "purpose" ++ gap ++ oneOf [word "and", word "&"] ++ gap ++
    word "identity" ++ gap ++ optional (chr ':') ++ gap ++ finish

structure Cover where
  name : String
  purpose : List String

def findName : List String → Option (String × List String)
  | [] => none
  | line :: rest =>
    match nameLine.match? line with
    | some m => some (strip (m.group "name"), rest)
    | none => findName rest

def isHeader (line : String) : Bool :=
  moduleHeader.fits line || sectionHeader.fits line

/-- The purpose of an agent goes up to the first header. -/
def purposeOf (lines : List String) : List String :=
  let body := (lines.dropWhile fun l => !purposeLine.fits l).drop 1
  listItems (body.takeWhile fun l => !isHeader (stripEnd l))

def readCover (text : String) : Except Error Cover :=
  match findName (lines text) with
  | none => .error .noAgentName
  | some (name, rest) =>
    if name.isEmpty then .error .noAgentName
    else
      let purpose := purposeOf rest
      if purpose.isEmpty then .error .noAgentPurpose else .ok ⟨name, purpose⟩

def Cover.toValue (c : Cover) : Value :=
  .obj [("type", "Program"), ("name", c.name),
    ("purposeAndIdentity", .list (c.purpose.map .str)), ("modules", .list []),
    ("version", "1.0"), ("astVersion", "2.1.0")]

structure ModuleOutline where
  name : String
  purpose : List String := []
  inputs : List String := []
  outputs : List String := []
  flow : List String := []
  tests : List String := []
  successCriteria : List String := []
  version : Option String := none
  astVersion : Option String := none
  examples : List String := []

def afterTitle (title : Pattern) : Pattern :=
  title ++ gap ++ chr ':' ++ gap ++ named "value" (many1 onLine) ++ finish

def versionTitle : Pattern := afterTitle (word "version")

def astVersionTitle : Pattern := afterTitle (word "ast" ++ gap ++ word "version")

def inlineTitle : Pattern :=
  named "key" (few onLine) ++ chr ':' ++ gap ++ named "value" (many1 onLine) ++ finish

def inlineItem? (title : String) : Option String :=
  match inlineTitle.match? title with
  | some m =>
    let key := lower (strip (m.group "key"))
    let value := strip (m.group "value")
    if ["inputs", "outputs", "examples", "tests", "flow"].any (startsWith key) &&
        !value.isEmpty then
      some value
    else none
  | none => none

/-- The list of a section: what its title holds is added to the list so far, and
    otherwise its lines replace it. -/
def listOf (soFar : List String) (title : String) (body : List String) : List String :=
  match inlineItem? title with
  | some item => soFar ++ [item]
  | none => listItems body

/-- The value on the first line of a section, after a label that may be repeated
    there. -/
def firstValue? (label : Pattern) (body : List String) : Option String :=
  match body with
  | [] => none
  | line :: _ =>
    if (strip line).isEmpty then none
    else some (strip ((start ++ label ++ chr ':' ++ gap).replaceAll (fun _ => "")
      (dropListMark (strip line))))

def ModuleOutline.addSection (m : ModuleOutline) (title : String) (body : List String) :
    ModuleOutline :=
  let key := lower title
  match versionTitle.match? title, astVersionTitle.match? title with
  | some v, _ => { m with version := some (strip (v.group "value")) }
  | none, some v => { m with astVersion := some (strip (v.group "value")) }
  | none, none =>
    if startsWith key "purpose and identity" then { m with purpose := listItems body }
    else if startsWith key "inputs" then { m with inputs := listOf m.inputs title body }
    else if startsWith key "outputs" then { m with outputs := listOf m.outputs title body }
    else if startsWith key "flow" then { m with flow := listOf m.flow title body }
    else if startsWith key "tests" then { m with tests := listOf m.tests title body }
    else if startsWith key "success criteria" then { m with successCriteria := listItems body }
    else if startsWith key "examples" then { m with examples := listOf m.examples title body }
    else if startsWith key "version" then
      match firstValue? (word "version") body with
      | some v => { m with version := some v }
      | none => m
    else if startsWith key "astversion" || startsWith key "ast version" then
      match firstValue? (word "ast" ++ gap ++ word "version") body with
      | some v => { m with astVersion := some v }
      | none => m
    else m

def ModuleOutline.ofLines (name : String) (lines : List String) : ModuleOutline :=
  (groups sectionTitle? lines).2.foldl (fun m s => m.addSection s.1 s.2) { name := name }

def readModules (text : String) : List ModuleOutline :=
  (groups moduleName? (lines text)).2.map fun (name, body) => .ofLines name body

def versionOr (v : Option String) (usual : String) : String :=
  match v with
  | some s => if s.isEmpty then usual else s
  | none => usual

def ModuleOutline.toValue (m : ModuleOutline) : Value :=
  let texts (xs : List String) : Value := .list (xs.map .str)
  .obj [("name", m.name), ("purposeAndIdentity", texts m.purpose), ("inputs", texts m.inputs),
    ("outputs", texts m.outputs), ("flowLines", texts m.flow), ("tests", texts m.tests),
    ("successCriteria", texts m.successCriteria), ("version", versionOr m.version "1.0"),
    ("astVersion", versionOr m.astVersion "2.1.0"), ("examples", texts m.examples)]

end Loom.Agent
