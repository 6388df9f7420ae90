import Loom.Fields
import Loom.Xml.Scan

/-!
# Document Types

What a document declares about itself before its first element: entities, which are
names for texts, and attributes that elements have without writing them. A text that
a document leads to is never read, but it may declare what the document lacks.

Entities may name entities. A text in which they are followed is read as a stack of
sources: an entity puts its own text on top, and none may be open twice. Following
them is bounded by `expansionLimit` characters.
-/

namespace Loom.Xml

inductive Entity where
  | text (cs : List Char)
  /-- Something outside of the document. -/
  | outside

structure Preset where
  name : String
  /-- Whether every blank of a value counts. -/
  isVerbatim : Bool
  value : Option String

structure Doctype where
  /-- Whether the document says that nothing outside matters to it. -/
  standsAlone : Bool
  entities : Fields Entity := []
  presets : Fields (List Preset) := []
  /-- Whether declarations may stand outside of the document. -/
  reachesOut : Bool := false
  /-- Whether declarations still count. They do not after one that is not read. -/
  isHeeded : Bool := true

def expansionLimit : Nat := 8388608

/-- A text that is being read, with the entity it comes from. -/
structure Source where
  entity : Option String
  rest : List Char

namespace Doctype

def mayLack (d : Doctype) : Bool :=
  d.reachesOut && !d.standsAlone

/-- The characters of an attribute, its references followed and its blanks made
    spaces. `done` holds them backwards. -/
def attributeChars? (d : Doctype) : Nat → List Source → List Char → Option (List Char)
  | 0, _, _ => none
  | _ + 1, [], done => some done.reverse
  | fuel + 1, ⟨_, []⟩ :: outer, done => attributeChars? d fuel outer done
  | fuel + 1, ⟨entity, c :: rest⟩ :: outer, done =>
    if c == '<' then none
    else if c == '&' then
      match reference? rest with
      | none => none
      | some (.char r, more) => attributeChars? d fuel (⟨entity, more⟩ :: outer) (r :: done)
      | some (.entity name, more) =>
        let sources := ⟨entity, more⟩ :: outer
        match predefined? name, d.entities.get? name with
        | some r, _ => attributeChars? d fuel sources (r :: done)
        | none, some (.text cs) =>
          if sources.any fun s => s.entity == some name then none
          else attributeChars? d fuel (⟨some name, cs⟩ :: sources) done
        | none, some .outside => none
        | none, none => if d.mayLack then attributeChars? d fuel sources done else none
    else
      attributeChars? d fuel (⟨entity, rest⟩ :: outer) ((if isSpace c then ' ' else c) :: done)

/-- Words with one space between them, given words with more and none before them. -/
def squeeze : List Char → List Char
  | [] => []
  | c :: cs =>
    let rest := squeeze cs
    if c == ' ' && (rest.isEmpty || rest.head? == some ' ') then rest else c :: rest

def attributeValue? (d : Doctype) (isVerbatim : Bool) (cs : List Char) : Option String := do
  let value ← d.attributeChars? (cs.length + expansionLimit) [⟨none, cs⟩] []
  pure (String.ofList (if isVerbatim then value else squeeze (value.dropWhile (· == ' '))))

def presetsOf (d : Doctype) (element : String) : List Preset :=
  d.presets.getD element []

def isVerbatim (d : Doctype) (element name : String) : Bool :=
  match (d.presetsOf element).find? fun p => p.name == name with
  | some p => p.isVerbatim
  | none => true

def declare (d : Doctype) (name : String) (e : Entity) : Doctype :=
  if d.isHeeded && (predefined? name).isNone then
    { d with entities := d.entities.putNew name e }
  else d

/-- Declare something about an attribute. The first declaration counts. -/
def preset (d : Doctype) (element : String) (p : Preset) : Doctype :=
  if d.isHeeded && !(d.presetsOf element).any fun q => q.name == p.name then
    { d with presets := d.presets.put element (d.presetsOf element ++ [p]) }
  else d

end Doctype

end Loom.Xml
