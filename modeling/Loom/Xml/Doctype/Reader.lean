import Loom.Xml.Doctype.Basic

/-!
# Tokens of Document Types

Declarations are made of tokens, with blanks between them where one wants. Some tokens
may only be followed by certain signs, so that a name has to be set apart from a
quoted text.
-/

namespace Loom.Xml.Doctype

inductive Token where
  | name (s : String)
  /-- A name of two parts around a colon. -/
  | qualified (s : String)
  | fragment
  | counted
  | literal (cs : List Char)
  /-- A percent sign before a blank. -/
  | percent
  /-- A reference to an entity of declarations. -/
  | parameter
  /-- A name after a number sign. -/
  | reserved (s : String)
  | opening (s : String)
  | aside
  | bracketOpen
  | bracketClose
  | parenOpen
  /-- A closing parenthesis and how often its group may occur. -/
  | parenClose (count : Option Char)
  | comma
  | bar
  | close
  deriving DecidableEq

def followedBy? (signs : List Char) (rest : List Char) : Option (List Char) :=
  match rest with
  | c :: _ => if isSpace c || signs.contains c then some rest else none
  | [] => none

def wordOf (cs : List Char) : Token :=
  let s := String.ofList cs
  let parts := (cs.takeWhile (· != ':'), (cs.dropWhile (· != ':')).drop 1)
  if !((cs.head?.map isNameStart).getD false) then .fragment
  else if !cs.contains ':' then .name s
  else if parts.2.isEmpty || parts.2.contains ':' then .fragment
  else .qualified s

def word? (cs : List Char) : Option (Token × List Char) :=
  let belongs (c : Char) : Bool := isNameChar c || c == ':'
  let (chars, rest) := (cs.takeWhile belongs, cs.dropWhile belongs)
  if chars.isEmpty then none
  else
    match rest with
    | c :: more =>
      if c == '?' || c == '*' || c == '+' then
        match wordOf chars with
        | .fragment => none
        | _ => some (.counted, more)
      else (followedBy? ['>', ')', ',', '|', '[', '%'] rest).map (wordOf chars, ·)
    | [] => none

def percent? (cs : List Char) : Option (Token × List Char) :=
  match cs with
  | c :: _ =>
    if isSpace c || c == '%' then some (.percent, cs)
    else
      match takeName cs with
      | some (_, ';' :: rest) => some (.parameter, rest)
      | _ => none
  | [] => none

def opening? (cs : List Char) : Option (Token × List Char) :=
  match cs with
  | '-' :: '-' :: rest => (comment? rest).map (Token.aside, ·)
  | _ =>
    let belongs (c : Char) : Bool := c.isAlpha || c == '_'
    let name := cs.takeWhile belongs
    if name.isEmpty then none
    else (followedBy? [] (cs.dropWhile belongs)).map (.opening (String.ofList name), ·)

def next? (cs : List Char) : Option (Token × List Char) :=
  match skipSpace cs with
  | '<' :: '!' :: rest => opening? rest
  | '<' :: '?' :: rest => (instruction? rest).map (Token.aside, ·)
  | '%' :: rest => percent? rest
  | '#' :: rest => do
    let (name, rest) ← takeName rest
    let rest ← followedBy? [')', '>', '%', '|'] rest
    pure (.reserved (String.ofList name), rest)
  | '[' :: rest => some (.bracketOpen, rest)
  | ']' :: rest => if (after? "]>" rest).isSome then none else some (.bracketClose, rest)
  | '(' :: rest => some (.parenOpen, rest)
  | ')' :: c :: rest =>
    if c == '*' || c == '?' || c == '+' then some (.parenClose (some c), rest)
    else (followedBy? ['>', ',', '|', ')'] (c :: rest)).map (Token.parenClose none, ·)
  | ',' :: rest => some (.comma, rest)
  | '|' :: rest => some (.bar, rest)
  | '>' :: rest => some (.close, rest)
  | c :: rest =>
    if c == '"' || c == '\'' then do
      let (text, rest) ← quotedText? (c :: rest)
      let rest ← followedBy? ['>', '%', '['] rest
      pure (.literal text, rest)
    else word? (c :: rest)
  | [] => none

/-!
### Reading Document Types

A document type names the root, may lead to a text outside of the document, and may
hold declarations in brackets. Declarations of elements and of notations say nothing
that matters to a reader, but they have to be well-formed.

A reference between declarations stands for more of them. It is not followed, and
unless the document stands alone what comes after it no longer counts.
-/

/-- Reads on from the start of a text. -/
abbrev Reader := StateT (List Char) Option

def next : Reader Token := next?

/-- A reading that may go on for as many rounds as there are characters. -/
def bounded (r : Nat → Reader α) : Reader α := do
  r (← get).length

def close : Reader Unit := do
  guard ((← next) == .close)

def literal : Reader (List Char) := do
  let .literal text ← next | failure
  pure text

def name : Reader String := do
  let .name s ← next | failure
  pure s

def anyName : Reader String := do
  match ← next with
  | .name s | .qualified s => pure s
  | _ => failure

def isPublic (c : Char) : Bool :=
  c.isAlphanum || c == ' ' || c == '\n' || "-'()+,./:=?;!*#@$_%".toList.contains c

def publicLiteral : Reader Unit := do
  guard ((← literal).all isPublic)

def outside (word : String) : Reader Unit := do
  if word == "PUBLIC" then publicLiteral else guard (word == "SYSTEM")
  discard literal

/-- The text of an entity: its numbered characters are put in, its entities kept for
    later. -/
def entityText? : Nat → List Char → Option (List Char)
  | 0, _ => none
  | _ + 1, [] => some []
  | fuel + 1, c :: rest =>
    if c == '%' then none
    else if c == '&' then
      match reference? rest with
      | some (.char r, more) => (entityText? fuel more).map (r :: ·)
      | some (.entity name, more) =>
        (entityText? fuel more).map ('&' :: name.toList ++ ';' :: ·)
      | none => none
    else (entityText? fuel rest).map (c :: ·)

def declareText? (d : Doctype) (name : Option String) (value : List Char) : Option Doctype :=
  if !d.isHeeded then some d
  else do
    let text ← entityText? (value.length + 1) value
    match name with
    | some n => some (d.declare n (.text text))
    | none => some d

/-- After the name of an entity: its text, or where that is. Entities of declarations
    have no name here, for they are never followed; only the others may be of a kind of
    data that is not markup. -/
def definition (d : Doctype) (own : Option String) : Reader Doctype := do
  match ← next with
  | .literal value =>
    let d ← declareText? d own value
    close
    pure d
  | .name word =>
    outside word
    match ← next with
    | .close => pure ()
    | .name "NDATA" =>
      guard own.isSome
      discard name
      close
    | _ => failure
    pure (own.elim d (d.declare · .outside))
  | _ => failure

/-- After `<!ENTITY`. -/
def entity (d : Doctype) : Reader Doctype := do
  match ← next with
  | .percent =>
    discard name
    definition d none
  | .name n => definition d (some n)
  | _ => failure

def alternatives (isOne : Token → Bool) : Nat → Reader Unit
  | 0 => failure
  | fuel + 1 => do
    guard (isOne (← next))
    match ← next with
    | .bar => alternatives isOne fuel
    | .parenClose none => pure ()
    | _ => failure

def isValue : Token → Bool
  | .name _ | .qualified _ | .fragment => true
  | _ => false

def isName : Token → Bool
  | .name _ => true
  | _ => false

/-- Whether every blank counts in values of a type. -/
def attributeType : Reader Bool := do
  match ← next with
  | .name "CDATA" => return true
  | .parenOpen => bounded (alternatives isValue)
  | .name "NOTATION" =>
    guard ((← next) == .parenOpen)
    bounded (alternatives isName)
  | .name word =>
    guard (["ID", "IDREF", "IDREFS", "ENTITY", "ENTITIES", "NMTOKEN", "NMTOKENS"].contains word)
  | _ => failure
  pure false

def attributeDefault : Reader (Option (List Char)) := do
  match ← next with
  | .literal value => pure (some value)
  | .reserved "IMPLIED" | .reserved "REQUIRED" => pure none
  | .reserved "FIXED" => some <$> literal
  | _ => failure

def attributes (owner : String) : Nat → Doctype → Reader Doctype
  | 0, _ => failure
  | fuel + 1, d => do
    match ← next with
    | .close => pure d
    | .name n | .qualified n =>
      let isVerbatim ← attributeType
      let given ← attributeDefault
      let value ← if d.isHeeded then given.mapM (d.attributeValue? isVerbatim ·) else pure none
      attributes owner fuel (d.preset owner ⟨n, isVerbatim, value⟩)
    | _ => failure

/-- After the text sign in a group: names after bars, and a star if there are any. -/
def mixed : Nat → Bool → Reader Unit
  | 0, _ => failure
  | fuel + 1, isFirst => do
    match ← next with
    | .bar =>
      discard anyName
      mixed fuel false
    | .parenClose (some '*') => pure ()
    | .parenClose none => guard isFirst
    | _ => failure

/-- A group of elements. Each open group is given by the sign that joins its items, as
    far as one was seen; a group has one kind of sign only. -/
def group : Nat → Bool → List (Option Token) → Reader Unit
  | 0, _, _ => failure
  | _ + 1, _, [] => pure ()
  | fuel + 1, wantsItem, sign :: outer => do
    let t ← next
    if wantsItem then
      match t with
      | .parenOpen => group fuel true (none :: sign :: outer)
      | .name _ | .qualified _ | .counted => group fuel false (sign :: outer)
      | _ => failure
    else
      match t with
      | .parenClose _ => group fuel false outer
      | .comma | .bar =>
        guard (sign.getD t == t)
        group fuel true (some t :: outer)
      | _ => failure

/-- After `<!ELEMENT`. -/
def element : Reader Unit := do
  discard anyName
  match ← next with
  | .name "EMPTY" | .name "ANY" => pure ()
  | .parenOpen =>
    match next? (← get) with
    | some (.reserved "PCDATA", rest) =>
      set rest
      bounded (mixed · true)
    | _ => bounded fun n => group (n + 1) true [none]
  | _ => failure
  close

/-- After `<!NOTATION`. -/
def dataKind : Reader Unit := do
  discard name
  match ← next with
  | .name "SYSTEM" =>
    discard literal
    close
  | .name "PUBLIC" =>
    publicLiteral
    match ← next with
    | .literal _ => close
    | t => guard (t == .close)
  | _ => failure

def subset : Nat → Doctype → Reader Doctype
  | 0, _ => failure
  | fuel + 1, d => do
    match ← next with
    | .bracketClose => pure d
    | .aside => subset fuel d
    | .parameter => subset fuel { d with reachesOut := true, isHeeded := d.standsAlone }
    | .opening "ENTITY" => subset fuel (← entity d)
    | .opening "ATTLIST" =>
      let owner ← anyName
      subset fuel (← bounded (attributes owner · d))
    | .opening "ELEMENT" =>
      element
      subset fuel d
    | .opening "NOTATION" =>
      dataKind
      subset fuel d
    | _ => failure

/-- A document type up to its end, from after the name of the root and what may lead
    outside. -/
def ending (d : Doctype) : Reader Doctype := do
  match ← next with
  | .close => pure d
  | .bracketOpen =>
    let d ← bounded (subset · d)
    close
    pure d
  | _ => failure

/-- The document type at the start of a text. A document may do without. -/
def read (standsAlone : Bool) : Reader Doctype := do
  let d : Doctype := ⟨standsAlone, [], [], false, true⟩
  if (after? "<!" (← get)).isNone then return d
  guard ((← next) == .opening "DOCTYPE")
  discard anyName
  match next? (← get) with
  | some (.name word, rest) =>
    set rest
    outside word
    ending { d with reachesOut := true }
  | _ => ending d

end Loom.Xml.Doctype
