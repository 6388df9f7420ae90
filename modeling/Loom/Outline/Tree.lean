import Loom.Outline.Branch
import Loom.Outline.Token

/-!
# Clauses

Authors indent the parts of a `Choose` or a `Repeat` as they like. Before a tree
is built, the tokens of a flow are nested the way they read: under a `Choose`,
clause headers such as `when x > 1:` become verbs one level deeper than it and
the steps under them two levels deeper; under a `Repeat`, every step is at least
one level deeper. A header `for i in 1..3:` that follows the verb `Repeat` joins
that verb, so that its own nesting no longer matters.

Nothing is ever moved out: a token that is deep enough keeps its nesting.
-/

namespace Loom.Outline

open Loom.Text Loom.Text.Pattern

inductive OpenBlock where
  | none
  | choose (level : Int)
  | loop (level : Int)

structure ClauseState where
  inFlow : Bool := false
  opened : OpenBlock := .none
  /-- The last token was a bare `Repeat`, whose header may follow. -/
  expectsHeader : Bool := false
  done : List (Fields Value) := []

/-- Whether a value is one of some texts, asked of a set: what cannot be a name
    cannot be asked. -/
def isAmong (v : Value) (ss : List String) : Except Error Bool := do
  match ← v.toName with
  | some s => pure (ss.contains s)
  | none => pure false

def whenClause : Pattern :=
  start ++ text "when" ++ space ++ many1 onLine ++ chr ':' ++ gap ++ finish

def elseIfClause : Pattern :=
  start ++ text "else" ++ space ++ text "if" ++ space ++ many1 onLine ++ chr ':' ++ gap ++ finish

def otherwiseClause : Pattern :=
  start ++ text "otherwise:" ++ gap ++ finish

def isClauseHeader (line : String) : Bool :=
  whenClause.fits line || elseIfClause.fits line || otherwiseClause.fits line

/-- `for i in 1..3:` -/
def loopHeader : Pattern :=
  start ++ gap ++ text "for" ++ space ++ many1 onLine ++ chr ':' ++ gap ++ finish

def bodyVerbs : List String :=
  ["show", "make", "ask", "return", "check", "remember", "forget", "call", "try", "choose",
    "repeat"]

def blockVerbs : List String :=
  ["choose", "repeat", "try"]

structure ReadToken where
  fields : Fields Value
  type : Value
  value : String
  /-- The value without blanks around it, in small letters. -/
  plain : String
  nesting : Int

def ReadToken.of (v : Value) : Except Error ReadToken := do
  let fields ← v.toFields
  let value ← ((fields.getD "value" .null).orElse "").toText "strip"
  let nesting ← (fields.getD "nesting" (.int 0)).toInt
  pure ⟨fields, fields.getD "type" .null, value, lower (strip value), nesting⟩

def ReadToken.isVerb (t : ReadToken) : Bool := t.type.isText "VERB"

def ReadToken.isExpr (t : ReadToken) : Bool := t.type.isText "EXPR"

/-- A token at least as deep as `level`. -/
def ReadToken.deepen (t : ReadToken) (level : Int) : Fields Value :=
  if t.nesting < level then t.fields.put "nesting" (.int level) else t.fields

namespace ClauseState

def keep (s : ClauseState) (fields : Fields Value) : ClauseState :=
  { s with done := fields :: s.done, expectsHeader := false }

def lastVerb? (s : ClauseState) : Option (Fields Value) :=
  match s.done with
  | last :: _ => if (last.getD "type" .null).isText "VERB" then some last else none
  | [] => none

def followsBodyVerb (s : ClauseState) : Except Error Bool := do
  match s.lastVerb? with
  | some last =>
    let verb ← (last.getD "value" "").toText "strip"
    pure (bodyVerbs.contains (lower (strip verb)))
  | none => pure false

def joinHeader (s : ClauseState) (t : ReadToken) (level : Int) : ClauseState :=
  match s.done with
  | last :: before =>
    let joined := last.put "value" (.str ("Repeat " ++ strip t.value))
    { s with done := joined.put "nesting" (.int level) :: before, expectsHeader := false }
  | [] => { s with expectsHeader := false }

def underChoose (s : ClauseState) (t : ReadToken) (level : Int) :
    Except Error ClauseState := do
  if t.isVerb && blockVerbs.contains t.plain && t.nesting ≤ level then
    pure ({ s with opened := .none }.keep t.fields)
  else if (← isAmong t.type ["VERB", "EXPR"]) && isClauseHeader t.plain then
    let header := (t.fields.put "type" "VERB").put "value" (.str t.plain)
    pure (s.keep (header.put "nesting" (.int (max t.nesting (level + 1)))))
  else if t.isVerb && bodyVerbs.contains t.plain then
    pure (s.keep (t.deepen (level + 2)))
  else if t.isExpr && (← s.followsBodyVerb) then
    pure (s.keep (t.deepen (level + 2)))
  else pure (s.keep t.fields)

def underLoop (s : ClauseState) (t : ReadToken) (level : Int) : ClauseState :=
  if t.isVerb && blockVerbs.contains t.plain && t.nesting ≤ level then
    { s with opened := .none }.keep t.fields
  else if t.isVerb || (t.isExpr && s.lastVerb?.isSome) then s.keep (t.deepen (level + 1))
  else s.keep t.fields

def step (s : ClauseState) (v : Value) : Except Error ClauseState := do
  let t ← ReadToken.of v
  if t.type.isText "SECTION" then
    pure ({ s with inFlow := t.plain == "flow", opened := .none }.keep t.fields)
  else if !s.inFlow then pure (s.keep t.fields)
  else if t.isVerb && t.plain == "choose" then
    pure ({ s with opened := .choose t.nesting }.keep t.fields)
  else if t.isVerb && t.plain == "repeat" then
    let next := { s with opened := .loop t.nesting }.keep t.fields
    pure { next with expectsHeader := true }
  else
    match s.opened with
    | .choose level => s.underChoose t level
    | .loop level =>
      if s.expectsHeader && t.isExpr && loopHeader.fits t.value then
        pure (s.joinHeader t level)
      else pure (s.underLoop t level)
    | .none => pure (s.keep t.fields)

end ClauseState

def nestClauses (tokens : List Value) : Except Error (List Value) := do
  let s ← tokens.foldlM ClauseState.step {}
  pure (s.done.reverse.map .obj)

/-!
### Outline Trees

The tokens of an outline gathered into a tree: one entry per section, the flow
as steps inside steps. A step belongs to the last block before it that is less
deeply nested.

Tokens come from outside as documents, so their fields may be missing or of
another sort; each is read where it is needed.
-/

/-! ### Section names -/

def sectionLabel : Pattern :=
  let roman (c : Char) : Bool := "ivxlcdm".toList.any fun l => sameLetter l c
  start ++ oneOf [many1 roman ++ chr '.', one isLetterLike ++ chr '.',
    many1 (fun c => '0' ≤ c && c ≤ '9') ++ chr '.'] ++ oneOf [space, finish]

/-- A section name wherever it stands in a heading. -/
def sectionWord (s : Section) : Pattern :=
  edge ++ word (lower s.title) ++ edge

/-- The section that a heading names, and the value after its colon. A heading
    that holds no section name stands for itself. -/
def readHeading (heading : String) : String × Option String :=
  let (before, after) := partition (strip heading) ":"
  let name := sectionLabel.replaceAll (fun _ => "") (strip before)
  let found := Section.all.find? fun s => (sectionWord s).occurs name
  match found with
  | some s => (s.title, after.map strip)
  | none => (title name, after.map strip)

/-! ### The flow -/

/-- A block that is open: its step without the body, and the steps of the body
    so far, last first. -/
structure Frame where
  level : Value
  step : Value
  steps : List Value

/-- The open blocks, innermost first, and the steps outside all blocks, last
    first. -/
structure FlowStack where
  blocks : List Frame := []
  outer : List Value := []

def Frame.close (f : Frame) : Value :=
  f.step.setField "body" (stepsBody f.steps.reverse)

def Frame.append (f : Frame) (steps : List Value) : Frame :=
  { f with steps := steps ++ f.steps }

namespace FlowStack

def push (s : FlowStack) (step : Value) : FlowStack :=
  match s.blocks with
  | f :: rest => { s with blocks := f.append [step] :: rest }
  | [] => { s with outer := step :: s.outer }

def closeAll (inner : List Value) (outer : List Value) : List Frame → List Value
  | [] => (inner ++ outer).reverse
  | f :: rest => closeAll [(f.append inner).close] outer rest

def finish (s : FlowStack) : List Value :=
  closeAll [] s.outer s.blocks

/-- Close the blocks that a step at `level` does not belong to. `inner` holds the
    steps that the next block takes in. -/
def leave (level : Value) (inner : List Value) (outer : List Value) :
    List Frame → Except Error FlowStack
  | [] => .ok ⟨[], inner ++ outer⟩
  | f :: rest => do
    if ← Value.compareBy .ge f.level level then leave level [(f.append inner).close] outer rest
    else pure ⟨f.append inner :: rest, outer⟩

def add (s : FlowStack) (step : Value) (level : Value) : Except Error FlowStack := do
  let s ← leave level [] s.outer s.blocks
  if (step.field "is_block").truthy then pure { s with blocks := ⟨level, step, []⟩ :: s.blocks }
  else pure (s.push step)

end FlowStack

/-! ### Reading tokens -/

structure OpenTest where
  input : Fields Value := []
  expected : Value := .null

def OpenTest.toValue (t : OpenTest) : Value :=
  .obj [("input", .obj t.input), ("expectedOutput", t.expected)]

structure TreeState where
  current : Option String := none
  name : Value := .null
  purpose : Value := .null
  version : Value := .null
  inputs : List Value := []
  outputs : List Value := []
  flow : FlowStack := {}
  tests : List Value := []
  test : Option OpenTest := none

namespace TreeState

def isIn (s : TreeState) (sec : Section) : Bool :=
  s.current == some sec.title

/-- A heading opens a section. Flow and Tests start afresh. -/
def openSection (s : TreeState) (heading : String) : TreeState :=
  let (name, value) := readHeading heading
  let s := { s with current := some name }
  let value : Option Value := (value.bind nonEmpty?).map .str
  if s.isIn .flow then { s with flow := {} }
  else if s.isIn .tests then { s with tests := [] }
  else
    match value with
    | none => s
    | some v =>
      if s.isIn .module then { s with name := v }
      else if s.isIn .purpose then { s with purpose := v }
      else if s.isIn .version then { s with version := v }
      else s

/-- The entries `a = 1, b = 2` of a test's input, as texts. -/
def inputEntries (s : String) : Fields Value :=
  if s == "\x7b\x7d" then []
  else
    (splitOn s ",").foldl
      (fun acc pair =>
        match partition (strip pair) "=" with
        | (_, none) => acc
        | (k, some v) => acc.put (strip k) (.str (strip v)))
      []

/-- A key in Tests. The first key of a test is `input`, so it closes the test
    before it. -/
def openTest (s : TreeState) (key : String) : TreeState :=
  if key == "input" then
    match s.test with
    | some t => { s with tests := s.tests ++ [t.toValue], test := some {} }
    | none => { s with test := some {} }
  else s

def setTest (s : TreeState) (key value : String) : TreeState :=
  if key == "input" then
    let t := s.test.getD {}
    { s with test := some { t with input := Fields.merge t.input (inputEntries value) } }
  else if key == "expectedoutput" then
    { s with test := some { s.test.getD {} with expected := .str value } }
  else s

/-- The step of a verb and the expression after it. A `Repeat` with a header, a
    `Try` and a `Choose` are blocks. -/
def verbStep (verb : String) (expr : Option String) (level : Value) : Value :=
  let exprValue : Value := match expr with
    | some e => .str e
    | none => .null
  let base : Fields Value := [("verb", title verb), ("expr", exprValue), ("level", level)]
  let block : Fields Value := [("is_block", true), ("body", stepsBody [])]
  if verb == "repeat" && (expr.bind nonEmpty?).isSome then
    .obj (base ++ [("repeatSpec", exprValue)] ++ block)
  else if verb == "try" || verb == "choose" then .obj (base ++ block)
  else .obj (base ++ [("is_block", .bool false)])

def lineStep (line : String) (level : Value) : Value :=
  .obj [("verb", strip line), ("expr", ""), ("level", level), ("is_block", false)]

def close (s : TreeState) : TreeState :=
  match s.test with
  | some t => { s with tests := s.tests ++ [t.toValue], test := none }
  | none => s

end TreeState

/-- A `Repeat` joined with its header, taken apart again. -/
def splitJoined? (verb : String) : Option String :=
  let s := strip verb
  if startsWith (lower s) "repeat " then
    let after := dropChars "repeat ".length s
    if startsWith (lower after) "for " then some after else none
  else none

def declaration? (name : String) : List Value → Except Error (Option Value)
  | [] => .ok none
  | next :: _ => do
    if (← next.require "type").isText "RESULTTYPE" then
      let type ← (← next.require "value").toText "strip"
      pure (some (.obj [("name", strip name), ("type", (title (strip type)))]))
    else pure none

def exprAfter? (level : Value) : List Value → Except Error (Option String)
  | [] => .ok none
  | next :: _ => do
    if !(← next.require "type").isText "EXPR" then pure none
    else if !(← next.require "nesting").same level then pure none
    else
      let e ← (← next.require "value").toText "strip"
      pure (some (strip e))

/-- What one token does, given the tokens after it: the state after it, and how
    many of those tokens it took. -/
def readToken (s : TreeState) (tok : Value) (rest : List Value) :
    Except Error (TreeState × Nat) := do
  let type ← tok.require "type"
  let value := tok.fieldD "value" ""
  let level := tok.fieldD "nesting" (.int 0)
  let joined ←
    if type.isText "VERB" then do pure (splitJoined? (← value.toText "strip")) else pure none
  if type.isText "SECTION" then
    pure (s.openSection (value.str?.getD ""), 0)
  else
    let plain (sec : Section) : Except Error Bool := do
      if s.isIn sec then isAmong type ["VALUE", "IDENTIFIER"] else pure false
    if ← plain .module then
      pure ({ s with name := .str (strip (← value.toText "strip")) }, 0)
    else if ← plain .purpose then
      pure ({ s with purpose := .str (strip (← value.toText "strip")) }, 0)
    else if ← plain .version then
      pure ({ s with version := .str (strip (← value.toText "strip")) }, 0)
    else if s.isIn .inputs && type.isText "IDENTIFIER" then
      match ← declaration? (← value.toText "strip") rest with
      | some d => pure ({ s with inputs := s.inputs ++ [d] }, 1)
      | none => pure (s, 0)
    else if s.isIn .outputs && type.isText "IDENTIFIER" then
      match ← declaration? (← value.toText "strip") rest with
      | some d => pure ({ s with outputs := s.outputs ++ [d] }, 1)
      | none => pure (s, 0)
    else if s.isIn .flow && type.isText "VERB" then
      match joined with
      | some header =>
        let step := TreeState.verbStep "repeat" (some (strip header)) level
        pure ({ s with flow := ← s.flow.add step level }, 0)
      | none =>
        let verb := lower (strip (← value.toText "strip"))
        let expr ← exprAfter? level rest
        let step := TreeState.verbStep verb expr level
        pure ({ s with flow := ← s.flow.add step level }, if expr.isSome then 1 else 0)
    else if s.isIn .flow && (← isAmong type ["EXPR", "VALUE", "IDENTIFIER"]) then
      let line ← (value.orElse "").toText "strip"
      pure ({ s with flow := ← s.flow.add (TreeState.lineStep line level) level }, 0)
    else if s.isIn .tests && type.isText "KEY" then
      let key := lower (strip (← value.toText "strip"))
      let s := s.openTest key
      match rest with
      | next :: _ =>
        if (← next.require "type").isText "VALUE" then
          let v ← (← next.require "value").toText "strip"
          pure (s.setTest key (strip v), 1)
        else pure (s, 0)
      | [] => pure (s, 0)
    else if s.isIn .tests && type.isText "VALUE" && s.test.any (·.expected.isNull) then
      let v := strip (← value.toText "strip")
      pure ({ s with test := s.test.map fun t => { t with expected := .str v } }, 0)
    else pure (s, 0)

def readTokens (s : TreeState) (skip : Nat) : List Value → Except Error TreeState
  | [] => .ok s
  | tok :: rest =>
    match skip with
    | k + 1 => readTokens s k rest
    | 0 => do
      let (s, taken) ← readToken s tok rest
      readTokens s taken rest

/-- The tree of a token list. `inline` says whether conditional lines are
    recognised. -/
def parseTree (inline : Bool) (tokens : List Value) : Except Error Value := do
  let nested ← nestClauses tokens
  let s := (← readTokens {} 0 nested).close
  let steps : Value := .list s.flow.finish
  let grouped ← groupConditionals inline (steps.depth + 1) steps
  pure (.obj [("Module", s.name), ("Purpose", s.purpose), ("Inputs", s.inputs),
    ("Outputs", s.outputs), ("Flow", stepsBody grouped), ("Tests", s.tests),
    ("Version", s.version)])

def treeOf (text : String) : Except Error Value :=
  parseTree true ((tokenize text).map Token.toValue)

end Loom.Outline
