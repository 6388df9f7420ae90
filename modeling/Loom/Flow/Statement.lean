import Loom.Expr.Parser
import Loom.Text.Pattern
import Loom.Value.Access

/-!
# Phrases

Expressions as people write them in an outline: closed by a full stop, with
words for operators. A phrase is made plain before it is parsed.

A mark that closes a phrase is only dropped if all quotes before it are paired,
so that a mark inside a quoted text stays.
-/

namespace Loom.Flow

open Loom.Text Loom.Text.Pattern

def isMark (c : Char) : Bool :=
  c == '.' || c == '!' || c == '?'

def dropMark (phrase : String) : String :=
  let cs := (strip phrase).toList
  match cs.getLast? with
  | some c =>
    if isMark c && cs.count '"' % 2 == 0 && cs.count '\'' % 2 == 0 then
      stripEnd (String.ofList cs.dropLast)
    else String.ofList cs
  | none => ""

def operatorWords : List (Pattern × String) :=
  [(edge ++ word "plus" ++ edge, "+"),
    (edge ++ word "minus" ++ edge, "-"),
    (edge ++ word "times" ++ edge, "*"),
    (edge ++ word "multiplied" ++ space ++ word "by" ++ edge, "*"),
    (edge ++ word "divided" ++ space ++ word "by" ++ edge, "/"),
    (edge ++ word "over" ++ edge, "/")]

def plainPhrase (phrase : String) : String :=
  operatorWords.foldl (fun s (p, sign) => p.replaceAll (fun _ => sign) s) (dropMark phrase)

def readText (s : String) : Except Error Value :=
  match Expr.read s with
  | .ok e => .ok e.toValue
  | .error p => .error (.expression p)

def readExpr (v : Value) : Except Error Value :=
  match v with
  | .str s => readText s
  | v =>
    if !v.truthy then readText ""
    else
      match v with
      | .list _ | .obj _ | .bytes _ => .error (.notText v.kind)
      | v => .error (.noLength v.kind)

def readPhrase (phrase : String) : Except Error Value :=
  readText (plainPhrase phrase)

def readPhraseValue (v : Value) : Except Error Value :=
  match v with
  | .str s => readPhrase s
  | v => readExpr v

/-!
### Statements

A line of a flow with its verb and the text after it, read as a step. A verb may
carry its whole sentence, as in `Make x = 1`, or stand alone with the rest in
the text.
-/

/-- A variable name, case of letters ignored as everywhere in a line. -/
def nameText : Pattern :=
  one (fun c => isLetterLike c || c == '_') ++
    many fun c => isLetterLike c || ('0' ≤ c && c ≤ '9') || c == '_'

def stepValue (verb : String) (args : Fields Value) : Value :=
  .obj [("verb", verb), ("args", .obj args)]

def sentence (v : Value) : Except Error String := do
  pure (strip (← (v.orElse "").toText "strip"))

def isBlankText (v : Value) : Bool :=
  match v with
  | .str s => (strip s).isEmpty
  | v => !v.truthy

def afterVerb (verb : String) : Pattern :=
  start ++ gap ++ word verb ++ optional (space ++ named "rest" (many1 onLine)) ++ gap ++ finish

/-- A step of one expression, taken from the text or else from the sentence. A
    sentence with another verb has no expression, which counts as the empty
    text. -/
def readOneExpr (verb : String) (line text : Value) : Except Error Value := do
  if isBlankText text then
    let s ← sentence line
    let rest := ((afterVerb (lower verb)).match? s).bind (·.group? "rest")
    match (rest.map strip).filter (!·.isEmpty) with
    | none =>
      pure (stepValue verb [("expr", .obj [("type", "String"), ("value", "")])])
    | some phrase => pure (stepValue verb [("expr", ← readPhrase phrase)])
  else pure (stepValue verb [("expr", ← readPhraseValue text)])

def readReturn (line text : Value) : Except Error Value :=
  readOneExpr "Return" line text

def readShow (line text : Value) : Except Error Value :=
  readOneExpr "Show" line text

/-- `Ask name default "World"` -/
def askSentence : Pattern :=
  start ++ word "ask" ++ space ++ named "name" nameText ++ gap ++
    optional (word "default" ++ space ++ named "default" (many1 onLine)) ++ finish

/-- `the user for name, fallback "World"` -/
def askText : Pattern :=
  few onLine ++ edge ++ word "for" ++ space ++ named "name" nameText ++ gap ++ chr ',' ++ gap ++
    word "fallback" ++ space ++ named "default" (few1 onLine) ++ gap ++ finish

def readAsk (line text : Value) : Except Error Value := do
  let s ← sentence line
  match askSentence.match? s with
  | some m =>
    let named : Fields Value := [("name", m.group "name")]
    match m.group? "default" with
    | some d => pure (stepValue "Ask" (named.put "default" (← readPhrase d)))
    | none => pure (stepValue "Ask" named)
  | none =>
    let bare (t : String) : String :=
      String.ofList (dropEndWhile (· == '.') (strip t).toList)
    let found ←
      if text.truthy then do pure (askText.match? (bare (← text.toText "strip"))) else pure none
    match found with
    | some m =>
      let d ← readPhrase (m.group "default")
      pure (stepValue "Ask" [("name", m.group "name"), ("default", d)])
    | none => pure (stepValue "Ask" [])

def assignment : Pattern :=
  named "name" nameText ++ gap ++ chr '=' ++ gap ++ named "expr" (many1 onLine) ++ finish

/-- `Make x = 1` -/
def makeSentence : Pattern :=
  start ++ word "make" ++ space ++ assignment

def makeText : Pattern :=
  start ++ assignment

def setting : Pattern :=
  named "name" nameText ++ space ++ oneOf [word "to", chr '='] ++ space ++
    named "expr" (many1 onLine) ++ finish

/-- `Set x to 1` -/
def setSentence : Pattern :=
  start ++ word "set" ++ space ++ setting

def setText : Pattern :=
  start ++ setting

def readMake (line text : Value) : Except Error Value := do
  let s ← sentence line
  let made (m : Match) : Except Error Value := do
    pure (stepValue "Make"
      [("name", m.group "name"), ("expr", ← readPhrase (m.group "expr"))])
  match makeSentence.match? s with
  | some m => made m
  | none =>
    let t ← if text.truthy then do pure (some (strip (← text.toText "strip"))) else pure none
    match t.bind makeText.match? with
    | some m => made m
    | none =>
      match setSentence.match? s with
      | some m => made m
      | none =>
        match t.bind setText.match? with
        | some m => made m
        | none => pure (stepValue "Make" [])

/-- `Call Greeter with name = "Ada" save as message` -/
def callSentence : Pattern :=
  start ++ word "call" ++ space ++
    named "module" (one (fun c => isLetterLike c || c == '_') ++
      many fun c => isLetterLike c || ('0' ≤ c && c ≤ '9') || c == '_' || c == '.' || c == '/') ++
    gap ++ optional (word "with" ++ space ++ named "inputs" (few1 onLine)) ++ gap ++
    optional (word "save" ++ space ++ word "as" ++ space ++ named "result" nameText) ++ gap ++
    finish

/-- The entries `a = 1, b = 2` of a call. -/
def readInputs (acc : Fields Value) : List String → Except Error (Fields Value)
  | [] => .ok acc
  | part :: rest => do
    match partition (strip part) "=" with
    | (name, some e) => readInputs (acc.put (strip name) (← readPhrase (strip e))) rest
    | (_, none) => readInputs acc rest

def readCall (line : Value) : Except Error Value := do
  let s ← sentence line
  match callSentence.match? s with
  | some m =>
    let inputs ← readInputs [] (splitOn (m.group "inputs") ",")
    let args : Fields Value := [("module", m.group "module"), ("inputs", .obj inputs)]
    match m.group? "result" with
    | some r => pure (stepValue "Call" (args.put "result" (.str r)))
    | none => pure (stepValue "Call" args)
  | none => pure (stepValue "Call" [])

/-!
### Loop Headers

The line that says what a repetition ranges over: `Repeat i in 1..n`,
`For i in 1..n:` or `i in items`. The word `inclusive` after a range changes
nothing: a range always includes its last value.
-/

def headerShape : Pattern :=
  start ++ optional (oneOf [word "repeat" ++ space, word "for" ++ space]) ++ nameText ++ space ++
    word "in" ++ space ++ many1 onLine ++ finish

def isHeader (line : String) : Bool :=
  headerShape.fits line

def rangeOver : Pattern :=
  named "name" nameText ++ space ++ word "in" ++ space ++ named "range" (many1 onLine) ++ finish

def headerForms : List Pattern :=
  [start ++ word "repeat" ++ space ++ rangeOver, start ++ word "for" ++ space ++ rangeOver,
    start ++ rangeOver]

/-- What a range phrase denotes: a range if it holds the range sign, else a
    single expression. -/
def readRange (phrase : String) : Except Error Value := do
  let s := strip (plainPhrase phrase)
  let s := if endsWith s ":" then strip (String.ofList s.toList.dropLast) else s
  let s :=
    if endsWith (lower s) "inclusive" then strip (takeChars (s.length - 9) s) else s
  match partition s ".." with
  | (a, some b) =>
    let first ← readText (strip a)
    let last ← readText (strip b)
    pure (.obj [("type", "Range"), ("start", first), ("end", last),
      ("inclusive", true)])
  | (_, none) => readText s

def readHeader? (header : String) : Except Error (Option (Fields Value)) := do
  let s := strip header
  match headerForms.findSome? fun p => p.match? s with
  | some m =>
    let range ← readRange (m.group "range")
    pure (some [("iter", m.group "name"), ("range", range)])
  | none => pure none

/-- The arguments of a header, none if it describes nothing. -/
def headerArgs (header : String) : Except Error Value := do
  pure (.obj ((← readHeader? header).getD []))

end Loom.Flow
