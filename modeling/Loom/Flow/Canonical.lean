import Loom.Flow.Statement
import Loom.Outline.Branch

/-!
# Building a Flow

The steps of an outline's flow read as the steps of a program. Each line is read
on its own; what nests is decided by the levels of the lines. A line with the
shape of a loop header opens a repetition, and deeper lines after it go into
its block. The bare verb `Repeat` takes its header from one of the next lines.

A line with a verb that is not known is shown.
-/

namespace Loom.Flow

open Loom.Text Loom.Outline

/-- A repetition that is open: the level its body has to exceed, its arguments
    and the steps of its block so far, last first. -/
structure OpenLoop where
  level : Int
  args : Value
  steps : List Value

/-- The open repetitions, innermost first, and the steps outside all of them,
    last first. -/
structure Builder where
  loops : List OpenLoop := []
  outer : List Value := []

def loopStep (args : Value) (block : List Value) : Value :=
  .obj [("verb", "Repeat"), ("args", args), ("block", block)]

def OpenLoop.close (l : OpenLoop) (inner : List Value) : Value :=
  loopStep l.args (inner ++ l.steps).reverse

namespace Builder

/-- Close the repetitions that `stays` does not keep, innermost first. `inner`
    holds the steps that the next one takes in. -/
def closeWhile (stays : Int → Bool) (inner : List Value) (outer : List Value) :
    List OpenLoop → Builder
  | [] => ⟨[], inner ++ outer⟩
  | l :: rest =>
    if stays l.level then ⟨{ l with steps := inner ++ l.steps } :: rest, outer⟩
    else closeWhile stays [l.close inner] outer rest

/-- Close the repetitions whose level is not below `level`. -/
def leave (b : Builder) (level : Int) : Builder :=
  closeWhile (· < level) [] b.outer b.loops

def push (b : Builder) (step : Value) : Builder :=
  match b.loops with
  | l :: rest => { b with loops := { l with steps := step :: l.steps } :: rest }
  | [] => { b with outer := step :: b.outer }

def openLoop (b : Builder) (level : Int) (args : Value) : Builder :=
  { b with loops := ⟨level, args, []⟩ :: b.loops }

/-- Whether the arguments of a repetition name a variable and what it ranges
    over. -/
def isComplete (args : Value) : Except Error Bool := do
  let args := args.orElse (.obj [])
  if (← args.hasMember "iter") || (← args.hasMember "iterator") then
    pure ((← args.hasMember "range") || (← args.hasMember "iterable"))
  else pure false

/-- Take the last step back, if it is a repetition that still lacks its
    arguments. -/
def takeStub (b : Builder) : Except Error (Option (Builder × Value)) := do
  let isStub (s : Value) : Except Error Bool := do
    if (s.field "verb").isText "Repeat" then pure !(← isComplete (s.field "args")) else pure false
  match b.loops with
  | l :: rest =>
    match l.steps with
    | s :: before =>
      if ← isStub s then pure (some ({ b with loops := { l with steps := before } :: rest }, s))
      else pure none
    | [] => pure none
  | [] =>
    match b.outer with
    | s :: before => if ← isStub s then pure (some ({ b with outer := before }, s)) else pure none
    | [] => pure none

/-- A header at a level: it completes a repetition before it that lacks its
    arguments, or opens a new one. -/
def addHeader (b : Builder) (level : Int) (args : Value) : Except Error Builder := do
  let b := b.leave (level - 1)
  match ← b.takeStub with
  | some (b, stub) =>
    let steps := ((stub.field "block").list?.getD []).reverse
    pure { b with loops := ⟨level, args, steps⟩ :: b.loops }
  | none => pure (b.openLoop level args)

def finish (b : Builder) : List Value :=
  (closeWhile (fun _ => false) [] b.outer b.loops).outer.reverse

end Builder

def headerSources (step : Value) (verb : String) : List String :=
  verb :: (["expr", "value", "text", "header", "raw"].filterMap fun k => (step.field k).str?)

def headerOf? (step : Value) (verb : String) : Option String :=
  ((headerSources step verb).map strip).find? isHeader

def firstWord (s : String) : String :=
  lower ((fields s).head?.getD "")

def firstText (step : Value) : String :=
  let texts := ["verb", "expr", "header", "value", "text", "raw"].filterMap fun k =>
    (step.field k).str?.map strip
  (texts.find? (!·.isEmpty)).getD ""

/-- What a bare `Repeat` finds in the lines after it. -/
structure StubSearch where
  taken : Nat
  header : Option (String × Int)

/-- Look for the header of a bare `Repeat` in the next lines, at most `count` of
    them. Lines without text are used up on the way. -/
def findHeader (level : Int) : (count passed blank : Nat) → List Value → Except Error StubSearch
  | 0, _, blank, _ => .ok ⟨blank, none⟩
  | _, _, blank, [] => .ok ⟨blank, none⟩
  | count + 1, passed, blank, s :: rest => do
    if !s.isObj then findHeader level count (passed + 1) blank rest
    else
      let own ← levelOf s level
      let text := firstText s
      if text.isEmpty then findHeader level count (passed + 1) (blank + 1) rest
      else if isHeader text then pure ⟨passed + 1, some (text, own)⟩
      else pure ⟨blank, none⟩

def readLine (verb : String) (text : Value) : Except Error Value :=
  let line : Value := .str verb
  match firstWord verb with
  | "return" => readReturn line text
  | "show" => readShow line text
  | "ask" => readAsk line (text.orElse line)
  | "make" => readMake line text
  | "set" => readMake line text
  | "call" => readCall line
  | _ => readShow line text

/-- One step of the outline, given the steps after it: the builder after it, and
    how many of those steps it took. -/
def buildStep (b : Builder) (step : Value) (rest : List Value) : Except Error (Builder × Nat) := do
  if !step.isObj then pure (b, 0)
  else
    let verb := strip (← ((step.field "verb").orElse "").toText "strip")
    let level ← levelOf step 0
    match headerOf? step verb with
    | some header => pure (← b.addHeader level (← headerArgs header), 0)
    | none =>
      if firstWord verb == "repeat" then
        let found ← findHeader level 3 0 0 rest
        match found.header with
        | some (header, own) =>
          let args ← headerArgs header
          pure ((b.leave (max 0 (own - 1))).openLoop own args, found.taken)
        | none => pure ((b.leave level).openLoop level (.obj []), found.taken)
      else
        let s ← readLine verb (step.field "expr")
        pure ((b.leave level).push s, 0)

def buildSteps (b : Builder) (skip : Nat) : List Value → Except Error Builder
  | [] => .ok b
  | s :: rest =>
    match skip with
    | k + 1 => buildSteps b k rest
    | 0 => do
      let (b, taken) ← buildStep b s rest
      buildSteps b taken rest

def buildFlow (steps : Value) : Except Error (List Value) := do
  let b ← buildSteps {} 0 (← stepList steps)
  pure b.finish

/-!
### Canonical Flows

The same program can be outlined in several ways. These passes bring a flow
into one form, at every depth: headers that still stand as steps of their own
become repetitions, an empty repetition takes in the steps that follow it up to
a `Return`, and a lone `Return` goes to the end.
-/

def hasVerb (verb : String) (step : Value) : Bool :=
  (step.field "verb").isText verb

def headerVerb? (step : Value) : Option String :=
  match step.field "verb" with
  | .str s => if isHeader (strip s) then some s else none
  | _ => none

/-- Give a header to the nearest repetition before it, steps last first, if that
    one lacks its arguments. -/
def completeLast (header : String) : List Value → Except Error (Option (List Value))
  | [] => .ok none
  | s :: before => do
    if hasVerb "Repeat" s then
      if ← Builder.isComplete (s.field "args") then pure none
      else pure (some (s.setField "args" (← headerArgs header) :: before))
    else
      match ← completeLast header before with
      | some done => pure (some (s :: done))
      | none => pure none

def mergeFrom (done : List Value) : List Value → Except Error (List Value)
  | [] => .ok done.reverse
  | s :: rest => do
    match headerVerb? s with
    | some header =>
      match ← completeLast header done with
      | some completed => mergeFrom completed rest
      | none => mergeFrom (s :: done) rest
    | none => mergeFrom (s :: done) rest

def mergeHeaders (flow : List Value) : Except Error (List Value) :=
  mergeFrom [] flow

def readOrphan (step : Value) : Except Error Value := do
  match headerVerb? step with
  | some header =>
    pure (.obj [("verb", "Repeat"), ("args", ← headerArgs header),
      ("block", (step.field "block").orElse (.list []))])
  | none => pure step

def readOrphans (flow : List Value) : Except Error (List Value) :=
  flow.mapM readOrphan

def isEmptyLoop (step : Value) : Bool :=
  hasVerb "Repeat" step &&
    match step.field "block" with
    | .list xs => xs.isEmpty
    | _ => false

/-- The steps that an empty repetition takes in: up to the next repetition, or up
    to a `Return` and with it. -/
def takeBody : List Value → List Value × List Value
  | [] => ([], [])
  | s :: rest =>
    if !s.isObj || hasVerb "Repeat" s then ([], s :: rest)
    else if hasVerb "Return" s then ([s], rest)
    else
      let (body, after) := takeBody rest
      (s :: body, after)

/-- Fill empty repetitions. The fuel bounds the steps. -/
def fillFrom : Nat → List Value → List Value
  | 0, flow => flow
  | _ + 1, [] => []
  | fuel + 1, s :: rest =>
    if isEmptyLoop s then
      let (body, after) := takeBody rest
      s.setField "block" (.list body) :: fillFrom fuel after
    else s :: fillFrom fuel rest

def fillLoops (flow : List Value) : List Value :=
  fillFrom flow.length flow

def mapBlock (f : List Value → List Value) (step : Value) : Value :=
  match step.field "block" with
  | .list xs => step.setField "block" (.list (f xs))
  | _ => step

def places (verb : String) (flow : List Value) : List Nat :=
  (flow.zipIdx.filter fun (s, _) => hasVerb verb s).map Prod.snd

/-- A `Return` that is all there is in a block. -/
def loneReturn? (step : Value) : Option Value :=
  match step.field "block" with
  | .list [s] => if hasVerb "Return" s then some s else none
  | _ => none

def moveToEnd (flow : List Value) (i : Nat) : List Value :=
  match flow[i]? with
  | some s => flow.eraseIdx i ++ [s]
  | none => flow

/-- If there is one `Return` and a repetition: a `Return` alone in the last
    repetition comes out to the end, or else the `Return` goes behind it. -/
def settleReturn (flow : List Value) : List Value :=
  match places "Return" flow, (places "Repeat" flow).getLast? with
  | [i], some last =>
    match flow[last]?.bind loneReturn? with
    | some r => flow.modify last (·.setField "block" (.list [])) ++ [r]
    | none => if i < last then moveToEnd flow i else flow
  | _, _ => flow

def moveReturns : Nat → List Value → List Value
  | 0, flow => flow
  | depth + 1, flow => settleReturn (flow.map (mapBlock (moveReturns depth)))

def returnLast (flow : List Value) : List Value :=
  match places "Return" flow with
  | [i] => moveToEnd flow i
  | _ => flow

/-- The number of lists, objects and scalars in a value. -/
def weight (flow : List Value) : Nat :=
  Value.weightList flow

def onBlock (f : List Value → Except Error (List Value)) (step : Value) : Except Error Value := do
  match step.field "block" with
  | .list xs => pure (step.setField "block" (.list (← f xs)))
  | _ => pure step

/-- The canonical form. The fuel bounds the depth, which filling empty
    repetitions can raise, but not above the number of steps. -/
def canonicalAt : Nat → List Value → Except Error (List Value)
  | 0, flow => .ok flow
  | fuel + 1, flow => do
    let flow ← readOrphans (← mergeHeaders flow)
    let flow := moveReturns (weight flow + 1) (fillLoops flow)
    let flow ← flow.mapM (onBlock (canonicalAt fuel))
    pure (returnLast flow)

def canonical (flow : List Value) : Except Error (List Value) :=
  canonicalAt (weight flow + 1) flow

end Loom.Flow
