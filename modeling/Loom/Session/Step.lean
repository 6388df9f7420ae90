import Loom.Session.Basic
import Loom.Step
import Loom.Xml.Feed

/-!
# Fetching in a Run

A step that names an address fetches it. While capabilities are enforced only
addresses on the web are fetched, from the domains that the capabilities list;
a refusal is logged before it fails the run.
-/

namespace Loom.Run

open Loom.Text Loom.Web

def placeholder : Pattern :=
  let isHead (c : Char) : Bool := c.isAlpha || c == '_'
  let isTail (c : Char) : Bool := c.isAlphanum || c == '_'
  .seq (.chr '\x7b') (.seq (.named "name" (.seq (.one isHead) (.many isTail))) (.chr '\x7d'))

/-- The text of a variable inside an address; null is empty. -/
def addressText (v : Value) : String :=
  if v.isNull then "" else v.display

def fillNames (env : Env) (s : String) : String :=
  placeholder.replaceAll (fun m => addressText (env.getD (m.group "name") .null)) s

/-- Whether a text names a variable in braces whose value cannot be written. -/
def namesUnwritten (env : Env) (s : String) : Bool :=
  env.any fun (name, v) => v.hasLongInt && contains s ("\x7b" ++ name ++ "\x7d")

def addressOf (v : Value) : Run String := do
  match v with
  | .obj _ =>
    let w ← evaluate v
    if w.isNull then pure "" else liftExcept w.shown
  | .str s =>
    let env := (← get).env
    if namesUnwritten env s then throw .longInteger else pure (fillNames env s)
  | _ => pure ""

def refuse (action : String) (details : Fields Value) : Run Unit := do
  log (.obj ([("level", .str "error"), ("event", .str "capability"),
    ("cap", .str "network:fetch"), ("action", .str action)] ++ details))
  throw (.run .fetchDisallowed)

def parseUrl (url : String) : Run Url :=
  match Url.parse url with
  | .ok u => pure u
  | .error p => throw (.badUrl p)

def checkFetch (url : String) : Run Unit := do
  let s ← get
  if !s.enforce then pure ()
  else if startsWith url fixtureMark then refuse "blocked-fixture" [("url", url)]
  else
    let u ← parseUrl url
    if u.isHttp then
      let allowed ← liftExcept (Session.allowedDomains s.capabilities)
      if allowed.contains u.domain then pure ()
      else refuse "blocked-domain" [("domain", u.domain), ("url", url)]
    else refuse "blocked-scheme" [("url", url)]

def fetch (url : String) (limit : Int) : Run Document := do
  change fun s => { s with fetched := url :: s.fetched }
  let s ← get
  liftExcept (if startsWith url fixtureMark then fetchFixture url limit
    else fetchHttp s.network url limit)

def bindArg (step : Step) (name : String) (v : Value) : Run Unit :=
  match step.arg name with
  | .str target => bindName target v
  | _ => pure ()

def limitOf (v : Value) : Except Error Int :=
  if v.truthy then v.toInt else .ok defaultLimit

def checkTimeout (v : Value) : Except Error Unit := do
  if v.truthy then let _ ← v.toFloat else pure ()

def fetchStep (step : Step) (lineage : Lineage) (node : Value) : Run Unit := do
  let url ← addressOf node
  checkFetch url
  liftExcept (checkTimeout (step.arg "timeout"))
  let limit ← liftExcept (limitOf (step.arg "maxBytes"))
  let d ← fetch url limit
  bindArg step "into" (.str (decodeUtf8 d.body))
  bindArg step "intoBytes" (.int d.body.length)
  bindArg step "intoStatus" (.int d.status)
  bindArg step "intoType" (.str d.contentType)
  record lineage [("event", "fetch"), ("url", d.url), ("status", .int d.status),
    ("bytes", .int d.body.length), ("truncated", d.truncated), ("verb", "Call")]

/-!
### Taking a Step

What each verb does to a session. A step either goes on or returns a value, which
ends its block, the blocks around it and the module. Steps inside a step are
taken by a function that is given, so that nesting is bounded in one place.
-/

/-- The value that a step returned; `none` goes on. -/
abbrev Outcome := Option Value

def steps (take : Value → Run Outcome) : List Value → Run Outcome
  | [] => pure none
  | s :: rest => do
    match ← take s with
    | some v => pure (some v)
    | none => steps take rest

def block (take : Value → Run Outcome) (b : Value) : Run Outcome := do
  let inner ← liftExcept (b.lookup "steps")
  steps take (← liftExcept (inner.orElse (.list [])).items)

def makeStep (s : Step) (lineage : Lineage) : Run Outcome := do
  match s.arg "name" with
  | .str name =>
    if name.isEmpty then throw (.run .missingName)
    else
      let v ← argument (s.firstArg ["expr", "value"])
      bindName name v
      record lineage [("event", "make"), ("name", name), ("value", v),
        ("verb", "Make")]
      pure none
  | _ => throw (.run .missingName)

def showStep (s : Step) (lineage : Lineage) : Run Outcome := do
  let v ← argument (s.firstArg ["expr", "value", "text"])
  record lineage [("event", "show"), ("value", v), ("verb", "Show")]
  print (← liftExcept v.shown)
  log v
  pure none

def returnStep (s : Step) (lineage : Lineage) : Run Outcome := do
  let v ← argument (s.firstArg ["expr", "value"])
  record lineage [("event", "return"), ("value", v), ("verb", "Return")]
  pure (some v)

/-- A variable answers a question unless it is null or the empty text. -/
def isAnswer (v : Value) : Bool :=
  !v.isNull && !v.isText ""

def askStep (s : Step) : Run Outcome := do
  let default ← argument (s.args.getD "default" "")
  let store := s.arg "store"
  let answer ← match store with
    | .str name =>
      if name.isEmpty then pure .null
      else
        let known := (← get).env.getD name .null
        if isAnswer known then pure known
        else
          bindName name default
          pure default
    | _ => pure .null
  change fun x => { x with receipt := x.receipt.addAsk (.obj
    [("prompt", (s.arg "text").orElse ""), ("store", store), ("value", answer)]) }
  pure none

def traceOf (condition : Value) : Value :=
  if (condition.field "type").isText "Boolean" then
    .str (if (condition.field "value").truthy then "true" else "false")
  else condition

def selection (index : Nat) (kind : String) : Value :=
  .obj [("branch", .int index), ("kind", kind)]

def branchBlock (take : Value → Run Outcome) (branch : Value) : Run Outcome :=
  block take (Step.blockOf ((branch.field "steps").orElse (.list [])))

def branches (take : Value → Run Outcome) (lineage : Lineage) (index : Nat) :
    List Value → Run Outcome
  | [] => pure none
  | b :: rest => do
    if ← liftExcept (b.hasMember "when") then
      let condition ← liftExcept (b.lookup "when")
      let v ← evaluate condition
      let entry (selected : Value) : Fields Value :=
        [("event", "choose"), ("predicateTrace", .list [.obj
            [("expr", traceOf condition), ("value", v.truthy)]]),
          ("verb", "Choose"), ("rawVerb", .null), ("selected", selected)]
      if v.truthy then
        record lineage (entry (selection index "when"))
        branchBlock take b
      else
        record lineage (entry .null)
        branches take lineage (index + 1) rest
    else if (← liftExcept (b.lookup "otherwise")).truthy then
      let out ← branchBlock take b
      record lineage [("event", "choose"), ("predicateTrace", .list []),
        ("selected", selection index "otherwise"), ("verb", "Choose")]
      pure out
    else branches take lineage (index + 1) rest

def chooseStep (take : Value → Run Outcome) (s : Step) (lineage : Lineage) : Run Outcome := do
  branches take lineage 0 (← liftExcept ((s.arg "branches").orElse (.list [])).items)

structure Span where
  first : Int
  bound : Int
  stride : Int

namespace Span

def count (s : Span) : Nat :=
  if s.stride > 0 then ((s.bound - s.first + s.stride - 1).fdiv s.stride).toNat
  else ((s.first - s.bound - s.stride - 1).fdiv (-s.stride)).toNat

/-- A stride that is absent or zero is one. An inclusive range goes one past its
    end. -/
def ofValues? (first last stride : Value) (inclusive : Bool) : Except Error Span := do
  let a ← first.toInt
  let b ← last.toInt
  let k ← if stride.isNull || stride.same (.int 0) then pure 1 else stride.toInt
  let k := if k == 0 then 1 else k
  pure ⟨a, if inclusive then (if k > 0 then b + 1 else b - 1) else b, k⟩

end Span

def bindIterator (iterator v : Value) : Run Unit := do
  if !iterator.truthy then pure ()
  else
    match ← liftExcept iterator.toName with
    | some name => bindName name v
    | none => bindName iterator.display v

def countLoop (take : Value → Run Outcome) (iterator body : Value) (stride : Int) :
    Nat → Int → Run Outcome
  | 0, _ => pure none
  | n + 1, i => do
    bindIterator iterator (.int i)
    match ← block take body with
    | some v => pure (some v)
    | none => countLoop take iterator body stride n (i + stride)

def listLoop (take : Value → Run Outcome) (iterator body : Value) : List Value → Run Outcome
  | [] => pure none
  | v :: rest => do
    bindIterator iterator v
    match ← block take body with
    | some out => pure (some out)
    | none => listLoop take iterator body rest

def repeatStep (take : Value → Run Outcome) (s : Step) : Run Outcome := do
  let iterator := s.arg "iterator"
  let range := s.arg "range"
  let body := (s.arg "block").orElse (Step.blockOf (.list []))
  if (range.field "type").isText "Range" then
    let first ← argument (range.fieldD "start" (.int 0))
    let last ← argument (range.fieldD "end" (.int 0))
    let stride ← argument (range.fieldD "step" (.int 1))
    match Span.ofValues? first last stride (range.field "inclusive").truthy with
    | .ok span => countLoop take iterator body span.stride span.count span.first
    | .error _ => throw (.run .rangeBounds)
  else
    match s.arg "iterable" with
    | .list xs => listLoop take iterator body xs
    | _ => pure none

def titleOf (text : String) : String :=
  match (Xml.read? text).bind Xml.Element.anyTitle? with
  | some e => strip (e.text.getD "")
  | none => ""

def titleOp : String := "xml.firstTitle"

def titleStep (s : Step) (lineage : Lineage) : Run Outcome := do
  let source ← match s.args.get? "fromExpr" with
    | some (.obj fs) => evaluate (.obj fs)
    | _ =>
      match s.args.get? "from" with
      | some (.str name) => do pure ((← get).env.getD name .null)
      | _ => pure .null
  let text ← if source.isNull then pure "" else liftExcept source.shown
  bindArg s "into" (.str (titleOf text))
  record lineage [("event", "parse"), ("op", titleOp), ("verb", "Call")]
  pure none

def callInputs : List (String × Value) → Run (Fields Value)
  | [] => pure []
  | (k, v) :: rest => do
    let v ← argument v
    pure ((k, v) :: (← callInputs rest))

def inputDetail (source : String) (v : Value) : Value :=
  .obj [("value", v), ("source", source), ("meta", .obj [])]

/-- Where the inputs of a call came from: what the module asked for, then what
    else the caller gave. -/
def resolvedInputs (inputs : Fields Value) (asked : List Value) : Fields Value :=
  let fromAsks := asked.foldl (fun (acc : Fields Value) (a : Value) =>
    match a.field "store" with
    | .str name =>
      acc.put name (match inputs.get? name with
        | some v => inputDetail "caller" v
        | none =>
          let v := a.field "value"
          inputDetail (if v.isNull then "missing" else "default") v)
    | _ => acc) []
  inputs.foldl (fun acc i => acc.putNew i.1 (inputDetail "caller" i.2)) fromAsks

def calleeSession (s : Session) : Session :=
  { Session.start s.capabilities s.enforce s.registry s.network with
    printed := s.printed, fetched := s.fetched }

/-- Run a module in a session of its own. What it prints and fetches stays, and
    what it asked for is handed back with its result. -/
def inCallee (run : Value → Fields Value → Run Value) (callee : Value) (inputs : Fields Value) :
    Run (Value × List Value) := do
  let s ← get
  let (result, inner) := (run callee inputs).run (calleeSession s)
  change fun s => { s with printed := inner.printed, fetched := inner.fetched }
  let v ← liftExcept result
  pure (v, inner.receipt.ask)

/-- A call of a module. A module that is not known is recorded and nothing runs. -/
def callStep (run : Value → Fields Value → Run Value) (s : Step) (lineage : Lineage) :
    Run Outcome := do
  let target := s.arg "module"
  change fun x => { x with receipt := x.receipt.addCall (.obj [("from", .null), ("to", target)]) }
  let given := (s.arg "inputs").orElse (.obj [])
  let inputs ← match given with
    | .obj fs => callInputs fs
    | v => throw (.noMember v.kind.name "items")
  let entry (resolved : Fields Value) : Fields Value :=
    [("event", "call"), ("module", target), ("inputs", .obj inputs),
      ("inputsResolved", .obj resolved), ("verb", "Call")]
  let x ← get
  let callee := match target with
    | .str name => (x.module? name).getD .null
    | _ => .null
  if callee.isNull then
    record lineage (entry (resolvedInputs inputs []))
  else
    let (result, asked) ← inCallee run callee inputs
    record lineage (entry (resolvedInputs inputs asked))
    bindArg s "result" result
  pure none

/-- A call is a built-in operation, a call of a module or a fetch. -/
def anyCall (run : Value → Fields Value → Run Value) (s : Step) (lineage : Lineage) :
    Run Outcome := do
  if (s.arg "op").isText titleOp then titleStep s lineage
  else if s.args.has "module" && !s.args.has "url" && !s.args.has "http" && !s.args.has "op" then
    callStep run s lineage
  else
    let node := (s.arg "url").orElse (s.arg "http")
    if !node.isNull then fetchStep s lineage node
    pure none

def step (take : Value → Run Outcome) (run : Value → Fields Value → Run Value) (v : Value) :
    Run Outcome := do
  let s ← liftExcept (Step.ofValue v)
  let lineage := Lineage.ofStep v
  match s.verb with
  | "Make" => makeStep s lineage
  | "Show" => showStep s lineage
  | "Return" => returnStep s lineage
  | "Ask" => askStep s
  | "Choose" => chooseStep take s lineage
  | "Repeat" => repeatStep take s
  | "Call" => anyCall run s lineage
  | verb => throw (.run (.unsupportedVerb verb))

end Loom.Run
