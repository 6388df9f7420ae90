import Loom.Text.Pattern
import Loom.Text.Slice
import Loom.Value.Basic

/-!
# Outline Tokens

An outline is a list of lettered or numbered lines under section headings. It is
cut into tokens line by line. A line means different things in different
sections, so the current section is all that is carried from line to line:

Everything else is passed over. A bullet's nesting is half the width of its
indentation, a tab counting as four columns.
-/

namespace Loom.Outline

open Loom.Text Loom.Text.Pattern

inductive Section where
  | module | purpose | inputs | outputs | flow | tests | version
  deriving DecidableEq

namespace Section

def all : List Section :=
  [module, purpose, inputs, outputs, flow, tests, version]

def title : Section → String
  | module => "Module"
  | purpose => "Purpose"
  | inputs => "Inputs"
  | outputs => "Outputs"
  | flow => "Flow"
  | tests => "Tests"
  | version => "Version"

def ofName? (name : String) : Option Section :=
  all.find? fun s => lower name == lower s.title

end Section

inductive TokenKind where
  | section | value | identifier | resultType | verb | expr | key
  deriving DecidableEq

def TokenKind.name : TokenKind → String
  | .section => "SECTION"
  | value => "VALUE"
  | identifier => "IDENTIFIER"
  | resultType => "RESULTTYPE"
  | verb => "VERB"
  | expr => "EXPR"
  | key => "KEY"

structure Token where
  kind : TokenKind
  value : String
  nesting : Nat

def Token.toValue (t : Token) : Value :=
  .obj [("type", t.kind.name), ("value", t.value), ("nesting", .int t.nesting)]

def nestingOf (indent : List Char) : Nat :=
  (indent.foldl (fun width c => width + if c == '\t' then 4 else 1) 0) / 2

def knownVerbs : List String :=
  ["make", "set", "assign", "remember", "forget", "return", "show", "print", "emit", "check",
    "assert", "ensure", "require", "repeat", "try", "choose", "ask", "prompt", "get", "collect",
    "request"]

def isAsciiLetter (c : Char) : Bool :=
  c.isAlpha

def courtesy : Pattern :=
  let one := gap ++ oneOf [word "please", word "kindly", word "go ahead and"] ++ space
  start ++ one ++ repeated one

def forEach : Pattern :=
  start ++ word "for" ++ space ++ word "each" ++ edge ++ named "rest" (many onLine) ++ finish

def headWord : Pattern :=
  start ++ named "head" (many1 isAsciiLetter) ++ edge ++ named "rest" (many onLine) ++ finish

/-- The verb a flow line starts with and the rest of the line. `for each` opens
    a repetition. -/
def flowVerb? (line : String) : Option (String × String) :=
  let s := strip (courtesy.replaceAll (fun _ => "") line)
  match forEach.match? s with
  | some m => some ("repeat", strip (m.group "rest"))
  | none =>
    match headWord.match? s with
    | some m =>
      let head := lower (m.group "head")
      if knownVerbs.contains head then some (head, strip (m.group "rest")) else none
    | none => none

/-- `I. Module: Greeting`, `D. Flow`. -/
def heading : Pattern :=
  start ++ gap ++ many1 Char.isAlphanum ++ chr '.' ++ gap ++
    named "name" (few1 fun c => isAsciiLetter c || c == ' ') ++
    optional (chr ':' ++ gap ++ named "value" (many onLine)) ++ gap ++ finish

def isRoman (c : Char) : Bool :=
  "ivxlcdmIVXLCDM".toList.contains c

/-- `  1. something`, `A. Inputs`, `   i. return message`. -/
def bullet : Pattern :=
  start ++ named "indent" gap ++
    oneOf [many1 isDigit, one isAsciiLetter, many1 isRoman] ++ chr '.' ++ gap ++
    named "rest" (many onLine) ++ finish

def inlineSection : Pattern :=
  start ++ named "name" (few1 fun c => isAsciiLetter c || c == ' ') ++
    optional (chr ':' ++ gap ++ named "value" (many onLine)) ++ finish

def declaration : Pattern :=
  start ++ gap ++
    named "name" (one (fun c => isAsciiLetter c || c == '_') ++
      many fun c => c.isAlphanum || c == '_' || c == '-') ++
    gap ++ chr ':' ++ gap ++
    named "type" (many1 fun c => isAsciiLetter c || c == '/' || c == ' ') ++ gap ++ finish

/-- `input: ...` and `expectedOutput: ...`. -/
def testEntry : Pattern :=
  start ++ gap ++ named "key" (oneOf [word "input", word "expectedoutput"]) ++ gap ++ chr ':' ++
    gap ++ named "value" (many onLine) ++ gap ++ finish

def sectionTokens (s : Section) (value : String) : List Token :=
  ⟨.section, s.title, 0⟩ ::
    if (strip value).isEmpty then [] else [⟨.value, strip value, 0⟩]

def flowTokens (line : String) (nesting : Nat) : List Token :=
  match flowVerb? line with
  | some (verb, rest) => [⟨.verb, title verb, nesting⟩, ⟨.expr, rest, nesting⟩]
  | none => [⟨.expr, line, nesting⟩]

def testTokens (line : String) (nesting : Nat) : List Token :=
  match testEntry.match? line with
  | some m =>
    [⟨.key, strip (m.group "key"), nesting⟩, ⟨.value, strip (m.group "value"), nesting⟩]
  | none => []

def declarationTokens (line : String) (nesting : Nat) : List Token :=
  match declaration.match? line with
  | some m =>
    [⟨.identifier, strip (m.group "name"), nesting⟩,
      ⟨.resultType, title (strip (m.group "type")), nesting⟩]
  | none => []

def bulletTokens (current : Option Section) (rest : String) (nesting : Nat) : List Token :=
  match current with
  | none => []
  | some .inputs | some .outputs => declarationTokens rest nesting
  | some .tests => testTokens (strip rest) nesting
  | some .flow => flowTokens (strip rest) nesting
  | some _ => [⟨.value, strip rest, nesting⟩]

def plainTokens (current : Option Section) (line : String) : List Token :=
  let s := strip line
  if s.isEmpty then []
  else
    match current with
    | some .module | some .purpose | some .version => [⟨.value, s, 0⟩]
    | some .tests => testTokens s 0
    | some .flow => flowTokens s 0
    | _ => []

def opened? (m : Match) : Option (Section × String) :=
  (Section.ofName? (strip (m.group "name"))).map fun s => (s, m.group "value")

def sectionOf? (line : String) : Option (Section × String) :=
  match (heading.match? line).bind opened? with
  | some r => some r
  | none =>
    match bullet.match? line with
    | some m =>
      if nestingOf (m.group "indent").toList == 0 then
        (inlineSection.match? (m.group "rest")).bind opened?
      else none
    | none => none

def lineTokens (current : Option Section) (line : String) : Option Section × List Token :=
  match sectionOf? line with
  | some (s, value) => (some s, sectionTokens s value)
  | none =>
    match bullet.match? line with
    | some m =>
      (current, bulletTokens current (m.group "rest") (nestingOf (m.group "indent").toList))
    | none => (current, plainTokens current line)

def tokensOfLines (current : Option Section) : List String → List Token
  | [] => []
  | line :: rest =>
    let (next, ts) := lineTokens current line
    ts ++ tokensOfLines next rest

def tokenize (text : String) : List Token :=
  tokensOfLines none (lines text)

end Loom.Outline
