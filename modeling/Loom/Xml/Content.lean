import Loom.Xml.Doctype.Basic

/-!
# Elements

A marked-up document as a tree of elements. Of an element we keep its name, the
text that stands before its first child, and its children.
-/

namespace Loom.Xml

structure ExpandedName where
  space : String
  name : String
deriving DecidableEq

inductive Element where
  | mk (name : ExpandedName) (text : Option String) (children : List Element)

namespace Element

def name : Element → ExpandedName
  | mk n _ _ => n

def text : Element → Option String
  | mk _ t _ => t

def children : Element → List Element
  | mk _ _ cs => cs

mutual

def descendants : Element → List Element
  | mk _ _ cs => descendantsOf cs

def descendantsOf : List Element → List Element
  | [] => []
  | e :: es => e :: (descendants e ++ descendantsOf es)

end

def feedSpace : String := "http://www.w3.org/2005/Atom"

def child? (e : Element) (n : ExpandedName) : Option Element :=
  e.children.find? fun c => c.name == n

def entryTitle? (root : Element) : Option Element :=
  (root.children.filter fun c => c.name == ⟨feedSpace, "entry"⟩).findSome? fun c =>
    c.child? ⟨feedSpace, "title"⟩

/-- The title of an entry at any depth, else any title of a feed, else a title in
    no namespace. Of the last kind one that holds elements counts wherever it
    stands, and one without elements only right under the root. -/
def anyTitle? (root : Element) : Option Element :=
  let below := root.descendants
  let entries := below.filter fun e => e.name == ⟨feedSpace, "entry"⟩
  let title : ExpandedName := ⟨"", "title"⟩
  (entries.findSome? fun e => e.child? ⟨feedSpace, "title"⟩)
    <|> (below.find? fun e => e.name == ⟨feedSpace, "title"⟩)
    <|> (match below.find? fun e => e.name == title with
      | some e => if e.children.isEmpty then root.child? title else some e
      | none => none)

end Element

/-!
### Tags

The tag that opens an element, with its attributes. Attributes bind names to
namespaces, for the element itself and for all that is in it; attributes that the
document type gives count like those that are written.
-/

/-- The tag that opens an element, its attributes as written. -/
structure Tag where
  name : String
  attributes : List (String × List Char)
  isClosed : Bool

def tagEnd? (name : String) : Nat → List Char → Option (Tag × List Char)
  | 0, _ => none
  | fuel + 1, cs =>
    match skipSpace cs with
    | '>' :: rest => some (⟨name, [], false⟩, rest)
    | '/' :: '>' :: rest => some (⟨name, [], true⟩, rest)
    | trimmed =>
      if !(cs.head?.map isSpace).getD false then none
      else do
        let (key, rest) ← takeQualified trimmed
        let rest ← after? "=" (skipSpace rest)
        let (value, rest) ← quotedText? (skipSpace rest)
        let (tag, rest) ← tagEnd? name fuel rest
        pure ({ tag with attributes := (String.ofList key, value) :: tag.attributes }, rest)

def tag? (cs : List Char) : Option (Tag × List Char) := do
  let (name, rest) ← takeQualified cs
  tagEnd? (String.ofList name) (rest.length + 1) rest

/-- The namespaces that names are bound to. The empty name is for names without a
    colon. -/
abbrev Scope := Fields String

def reservedSpace : String := "http://www.w3.org/XML/1998/namespace"

def declarationSpace : String := "http://www.w3.org/2000/xmlns/"

/-- The two parts of a name; the first is empty without a colon. -/
def splitName (name : String) : String × String :=
  let cs := name.toList
  if cs.contains ':' then
    (String.ofList (cs.takeWhile (· != ':')), String.ofList ((cs.dropWhile (· != ':')).drop 1))
  else ("", name)

/-- What an attribute binds: the name, empty for names without a colon, and its
    namespace. Nothing if it is any other attribute. -/
def bound? (given : String × String) : Option (String × String) :=
  match splitName given.1 with
  | ("", "xmlns") => some ("", given.2)
  | ("xmlns", p) => some (p, given.2)
  | _ => none

def mayBind (binding : String × String) : Bool :=
  let (p, uri) := binding
  if p == "xmlns" then false
  else if p == "xml" then uri == reservedSpace
  else uri != reservedSpace && uri != declarationSpace && !(p != "" && uri == "") &&
    !uri.contains '}'

def spaceOf? (scope : Scope) (p : String) : Option String :=
  if p == "xml" then some reservedSpace
  else if p == "" then some (scope.getD "" "")
  else scope.get? p

namespace Tag

def values? (d : Doctype) (t : Tag) : Option (List (String × String)) := do
  let written ← t.attributes.mapM fun (k, v) => do
    pure (k, ← d.attributeValue? (d.isVerbatim t.name k) v)
  let given := (d.presetsOf t.name).filterMap fun p => p.value.map (p.name, ·)
  if (written.map Prod.fst).Nodup then
    some (written ++ given.filter fun g => !written.any fun w => w.1 == g.1)
  else none

def scope? (outer : Scope) (values : List (String × String)) : Option Scope :=
  let bindings := values.filterMap bound?
  if bindings.all mayBind then some (bindings.foldl (fun s b => s.put b.1 b.2) outer) else none

/-- The name of an element in its namespace. All other names have to be bound, too,
    and no two attributes may have one name in one namespace. -/
def name? (scope : Scope) (t : Tag) (values : List (String × String)) : Option ExpandedName := do
  let (p, own) := splitName t.name
  let space ← spaceOf? scope p
  let names ← (values.filter fun v => (bound? v).isNone).mapM fun (k, _) => do
    let (p, n) := splitName k
    pure (← if p == "" then some "" else spaceOf? scope p, n)
  if names.Nodup then some ⟨space, own⟩ else none

end Tag

/-!
### Content of Elements

The content of an element is text, elements, references and asides. An entity that is
referred to is read in its place as content of its own: what opens inside it has to
close inside it.
-/

inductive Piece where
  | opening (t : Tag)
  | closing (name : String)
  | text (cs : List Char)
  | entity (name : String)
  | aside

def isPlain (c : Char) : Bool :=
  c != '<' && c != '&' && c != ']'

def piece? (cs : List Char) : Option (Piece × List Char) :=
  match cs with
  | '<' :: '/' :: rest => do
    let (name, rest) ← takeQualified rest
    let rest ← after? ">" (skipSpace rest)
    pure (.closing (String.ofList name), rest)
  | '<' :: '?' :: rest => (instruction? rest).map (Piece.aside, ·)
  | '<' :: '!' :: rest =>
    match after? "--" rest with
    | some rest => (comment? rest).map (Piece.aside, ·)
    | none => do
      let rest ← after? "[CDATA[" rest
      let (text, rest) ← upTo? "]]>" rest
      pure (.text text, rest)
  | '<' :: rest => (tag? rest).map fun (t, rest) => (.opening t, rest)
  | '&' :: rest => do
    match ← reference? rest with
    | (.char c, more) => some (.text [c], more)
    | (.entity name, more) =>
      match predefined? name with
      | some c => some (.text [c], more)
      | none => some (.entity name, more)
  | ']' :: rest =>
    if (after? "]>" rest).isSome then none else some (.text [']'], rest)
  | c :: rest => some (.text (c :: rest.takeWhile isPlain), rest.dropWhile isPlain)
  | [] => none

structure Frame where
  written : String
  name : ExpandedName
  scope : Scope
  depth : Nat
  /-- The text before its first child in pieces, last first. -/
  text : List (List Char)
  children : List Element

namespace Frame

def open? (d : Doctype) (outer : Scope) (depth : Nat) (t : Tag) : Option Frame := do
  let values ← t.values? d
  let scope ← Tag.scope? outer values
  let name ← t.name? scope values
  pure ⟨t.name, name, scope, depth, [], []⟩

def close (f : Frame) : Element :=
  let text := f.text.reverse.flatten
  .mk f.name (if text.isEmpty then none else some (String.ofList text)) f.children.reverse

def addText (f : Frame) (cs : List Char) : Frame :=
  if f.children.isEmpty then { f with text := cs :: f.text } else f

def addChild (f : Frame) (e : Element) : Frame :=
  { f with children := e :: f.children }

end Frame

/-- A text that is being read as content, with the number of elements that were open
    at its start. -/
structure Passage where
  source : Source
  depth : Nat

/-- Read the content of the open elements, innermost first, until the outermost one
    closes: it, and the rest of the document. The document itself is the last of the
    passages that are being read. -/
def content? (d : Doctype) : Nat → Frame → List Frame → Passage → List Passage →
    Option (Element × List Char)
  | 0, _, _, _, _ => none
  | fuel + 1, top, outer, here, passages =>
    if here.source.rest.isEmpty then
      match passages with
      | next :: others =>
        if top.depth == here.depth then content? d fuel top outer next others else none
      | [] => none
    else do
      let (piece, rest) ← piece? here.source.rest
      let onward : Passage := { here with source := { here.source with rest } }
      match piece with
      | .aside => content? d fuel top outer onward passages
      | .text t => content? d fuel (top.addText t) outer onward passages
      | .entity name =>
        match d.entities.get? name with
        | some (.text t) =>
          if (onward :: passages).any fun p => p.source.entity == some name then none
          else
            let inside : Passage := ⟨⟨some name, t⟩, top.depth⟩
            content? d fuel top outer inside (onward :: passages)
        | _ => none
      | .opening t =>
        let frame ← Frame.open? d top.scope (top.depth + 1) t
        if t.isClosed then content? d fuel (top.addChild frame.close) outer onward passages
        else content? d fuel frame (top :: outer) onward passages
      | .closing name =>
        if name != top.written || top.depth == here.depth then none
        else
          match outer with
          | [] => some (top.close, rest)
          | next :: others =>
            content? d fuel (next.addChild top.close) others onward passages

def element? (d : Doctype) (cs : List Char) : Option (Element × List Char) :=
  match cs with
  | '<' :: rest => do
    let (t, rest) ← tag? rest
    let frame ← Frame.open? d [] 1 t
    if t.isClosed then pure (frame.close, rest)
    else content? d (rest.length + expansionLimit) frame [] ⟨⟨none, rest⟩, 0⟩ []
  | _ => none

end Loom.Xml
