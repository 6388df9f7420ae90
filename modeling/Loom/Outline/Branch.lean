import Loom.Text.Pattern
import Loom.Value.Access
import Loom.Value.Arith

/-!
# Conditional Markers

Lines that read as conditionals: `if`, `when` or `unless` at the head, perhaps
after a polite opening, or one of the words for the other case.
-/

namespace Loom.Outline

open Loom.Text Loom.Text.Pattern

structure Marker where
  /-- The head word in small letters, `otherwise` for all words of the other case. -/
  head : Option String
  hasThen : Bool
  /-- The line without blanks around it and punctuation after it. -/
  normalized : String

def Marker.empty : Marker := ⟨none, false, ""⟩

def Marker.toValue (m : Marker) : Value :=
  .obj [("is_conditional", m.head.isSome),
    ("head", match m.head with
      | some h => .str h
      | none => .null),
    ("has_then", m.hasThen), ("normalized", m.normalized)]

def isClosing (c : Char) : Bool :=
  c == '.' || c == ';' || c == '!'

def closing : Pattern :=
  many1 isClosing ++ finish

def dropClosing (s : String) : String :=
  closing.replaceAll (fun _ => "") s

def politeWords : Pattern :=
  oneOf [word "please", word "kindly", word "go ahead and", word "would you", word "could you"]

def headWords : Pattern :=
  named "head" (oneOf [word "if", word "when", word "unless"])

def conditionHead : Pattern :=
  start ++ gap ++ optional (politeWords ++ space) ++ gap ++ headWords ++ edge

def otherHead : Pattern :=
  start ++ gap ++
    oneOf [word "else" ++ space ++ word "if", word "otherwise" ++ space ++ word "if",
      word "otherwise", word "else"] ++ edge

def thenWord : Pattern :=
  edge ++ word "then" ++ edge

def marker (line : String) : Marker :=
  let text := dropClosing (strip line)
  let head := match conditionHead.match? text with
    | some m => some (lower (m.group "head"))
    | none => if otherHead.fits text then some "otherwise" else none
  ⟨head, thenWord.occurs text, text⟩

/-- The texts before and after the first `then`, both empty if there is none. -/
def splitThen (text : String) : String × String :=
  let s := strip (dropClosing text)
  match thenWord.search? s with
  | some (before, m) => (strip before, strip (String.ofList m.rest))
  | none => ("", "")

inductive Conditional where
  | plain
  | otherwise
  /-- A head word, a condition, and perhaps an action after `then`. -/
  | branch (head condition : String) (action : Option String)

def conditionLine : Pattern :=
  start ++ gap ++ optional (politeWords ++ space) ++ headWords ++ edge ++
    named "rest" (many onLine) ++ finish

def nonEmpty? (s : String) : Option String :=
  if s.isEmpty then none else some s

def conditional (line : String) : Conditional :=
  let info := marker line
  match info.head with
  | none => .plain
  | some head =>
    if lower head == "otherwise" then .otherwise
    else
      match conditionLine.match? info.normalized with
      | none => .plain
      | some m =>
        let (condition, action) := splitThen (strip (m.group "rest"))
        if condition.isEmpty then .plain
        else .branch (lower head) (strip condition) (nonEmpty? action)

/-!
### Branches

Conditionals in a flow become `Choose` steps with branches. There are two ways
to write them:
-/

inductive BranchHeader where
  | no
  | otherwise
  | guarded (head condition : String)

def trailingColon : Pattern :=
  gap ++ chr ':' ++ gap ++ finish

def otherwiseAlone : Pattern :=
  start ++ oneOf [word "otherwise", word "else"] ++ gap ++ finish

def elseIfHeader : Pattern :=
  start ++ oneOf [word "else" ++ space ++ word "if", word "otherwise" ++ space ++ word "if",
    word "elif"] ++ space ++ named "condition" (many1 onLine) ++ finish

def whenHeader : Pattern :=
  start ++ oneOf [word "when", word "if"] ++ space ++ named "condition" (many1 onLine) ++ finish

def unlessHeader : Pattern :=
  start ++ word "unless" ++ space ++ named "condition" (many1 onLine) ++ finish

def branchHeader (line : String) : BranchHeader :=
  let s := trailingColon.replaceAll (fun _ => "") (strip line)
  if (strip line).isEmpty then .no
  else if otherwiseAlone.fits s then .otherwise
  else
    match elseIfHeader.match? s with
    | some m => .guarded "when" (strip (m.group "condition"))
    | none =>
      match whenHeader.match? s with
      | some m => .guarded "when" (strip (m.group "condition"))
      | none =>
        match unlessHeader.match? s with
        | some m => .guarded "unless" (strip (m.group "condition"))
        | none => .no

def levelOf (step : Value) (default : Int) : Except Error Int :=
  (step.fieldD "level" (.int default)).toInt

def stepsBody (steps : List Value) : Value :=
  .obj [("steps", steps)]

def branchValue (head condition : String) (body : List Value) : Value :=
  .obj [("head", head), ("when", condition), ("body", stepsBody body)]

/-- The steps at the start of a list that are deeper than `level`, and the rest.
    Anything that is no step ends them. -/
def takeDeeper (level : Int) : List Value → Except Error (List Value × List Value)
  | [] => .ok ([], [])
  | s :: rest => do
    if !s.isObj then pure ([], s :: rest)
    else if (← levelOf s 0) ≤ level then pure ([], s :: rest)
    else
      let (deeper, after) ← takeDeeper level rest
      pure (s :: deeper, after)

structure Gathered where
  branches : List Value := []
  otherwise : Option (List Value) := none

/-- Gather the branches under a `Choose` at `level`. Steps that belong to no
    header are passed over. The fuel bounds the steps. -/
def gatherBranches (level : Int) : Nat → Gathered → List Value → Except Error Gathered
  | 0, g, _ => .ok g
  | _ + 1, g, [] => .ok g
  | fuel + 1, g, s :: rest => do
    if !s.isObj then gatherBranches level fuel g rest
    else
      let own ← levelOf s 0
      if own != level + 1 then gatherBranches level fuel g rest
      else
        match branchHeader ((s.field "verb").str?.getD "") with
        | .no => gatherBranches level fuel g rest
        | .otherwise =>
          let (body, after) ← takeDeeper own rest
          gatherBranches level fuel { g with otherwise := some body } after
        | .guarded head condition =>
          let (body, after) ← takeDeeper own rest
          let branch := branchValue head condition body
          gatherBranches level fuel { g with branches := g.branches ++ [branch] } after

/-- The steps under a `Choose` gathered into branches. A step without branch
    headers under it stays as it is. -/
def absorbBranches (step : Value) : Except Error Value := do
  if !step.isObj then pure step
  else
    let verb ← ((step.field "verb").orElse "").toText "lower"
    if lower verb != "choose" || !(step.field "is_block").truthy then pure step
    else
      let level ← levelOf step 0
      let body := (step.field "body").orElse (.obj [])
      let steps ← ((← body.lookup "steps").orElse (.list [])).items
      let g ← gatherBranches level steps.length {} steps
      if g.branches.isEmpty && g.otherwise.isNone then pure step
      else
        let out := step.setField "branches" (.list g.branches)
        let out := match g.otherwise with
          | some other => out.setField "otherwise" (stepsBody other)
          | none => out
        pure (out.setField "body" (stepsBody []))

/-- A step made of the action on a conditional line. -/
def inlineStep (text : String) (level : Int) : Value :=
  .obj [("verb", strip text), ("expr", ""), ("level", .int level),
    ("is_block", false)]

def actionSteps (action : Option String) (level : Int) : List Value :=
  match action with
  | some text => [inlineStep text (level + 1)]
  | none => []

def elseIfLine : Pattern :=
  start ++ gap ++
    oneOf [word "else" ++ space ++ word "if", word "otherwise" ++ space ++ word "if"] ++
    space ++ named "condition" (few1 onLine) ++
    optional (space ++ word "then" ++ space ++ named "action" (many1 onLine)) ++ gap ++ finish

def otherwiseLine : Pattern :=
  start ++ gap ++ oneOf [word "otherwise", word "else"] ++ edge ++
    optional (space ++ named "action" (many1 onLine)) ++ gap ++ finish

inductive Continuation where
  | no
  | branch (head condition : String) (action : Option String)
  | otherwise (action : Option String)

def continuation (line : String) : Continuation :=
  let isHead (h : String) : Bool := ["if", "when", "unless"].contains h
  match conditional line with
  | .plain => .no
  | .branch head condition action => if isHead head then .branch head condition action else .no
  | .otherwise =>
    let s := dropClosing (strip line)
    match elseIfLine.match? s with
    | some m =>
      let condition := strip (m.group "condition")
      if condition.isEmpty then .no
      else .branch "when" condition (nonEmpty? (strip (m.group "action")))
    | none => .otherwise ((otherwiseLine.match? s).bind fun m => m.group? "action")

def continueChain (level : Int) (g : Gathered) :
    List Value → Except Error (Gathered × List Value)
  | [] => .ok (g, [])
  | s :: rest => do
    if !s.isObj then pure (g, s :: rest)
    else if (← levelOf s (-1)) != level then pure (g, s :: rest)
    else
      match continuation ((s.field "verb").str?.getD "") with
      | .no => pure (g, s :: rest)
      | .branch head condition action =>
        let branch := branchValue head condition (actionSteps action level)
        continueChain level { g with branches := g.branches ++ [branch] } rest
      | .otherwise action =>
        -- nothing follows the other case
        pure ({ g with otherwise := some (actionSteps action level) }, rest)

def chooseStep (level : Int) (g : Gathered) : Value :=
  let fs : Fields Value :=
    [("verb", "Choose"), ("branches", g.branches), ("level", .int level),
      ("is_block", true), ("body", stepsBody [])]
  match g.otherwise with
  | some other => .obj (fs.put "otherwise" (stepsBody other))
  | none => .obj fs

def groupBody (group : Value → Except Error (List Value)) (step : Value) : Except Error Value := do
  let body := step.field "body"
  if (step.field "is_block").truthy && body.isObj then
    let grouped ← group ((body.field "steps").orElse (.list []))
    pure (step.setField "body" (body.setField "steps" (.list grouped)))
  else pure step

def startOf (inline : Bool) (step : Value) : Conditional :=
  match step.field "verb" with
  | .str line => if inline then conditional line else .plain
  | _ => .plain

/-- A list of steps with each step read by `prepare` and conditional lines
    gathered with their continuations. The fuel bounds the steps. -/
def groupWith (inline : Bool) (prepare : Value → Except Error Value) :
    Nat → List Value → Except Error (List Value)
  | 0, _ => .ok []
  | _ + 1, [] => .ok []
  | fuel + 1, s :: rest => do
    let step ← prepare s
    match startOf inline step with
    | .branch head condition action =>
      if ["if", "when", "unless"].contains head then
        let level ← levelOf step 0
        let first := branchValue head condition (actionSteps action level)
        let (g, after) ← continueChain level { branches := [first] } rest
        let others ← groupWith inline prepare fuel after
        pure (chooseStep level g :: others)
      else
        let others ← groupWith inline prepare fuel rest
        pure (step :: others)
    | _ =>
      let others ← groupWith inline prepare fuel rest
      pure (step :: others)

/-- Read one step: group the body of a block, then gather the branches of a
    `Choose`. -/
def prepareStep (group : Value → Except Error (List Value)) (step : Value) :
    Except Error Value := do
  let step ← groupBody group step
  let verb ← ((← step.lookup "verb").orElse "").toText "lower"
  if lower verb == "choose" then absorbBranches step else pure step

def stepList (v : Value) : Except Error (List Value) :=
  match v with
  | .list xs => .ok xs
  | .obj (_ :: _) => .error (.noField "0")
  | .str s => (Value.str s).items
  | v => if v.truthy then .error (.noLength v.kind) else .ok []

/-- Conditionals grouped at every depth. `inline` says whether conditional lines
    are recognised; the fuel bounds the depth. -/
def groupConditionals (inline : Bool) : Nat → Value → Except Error (List Value)
  | 0, v => stepList v
  | depth + 1, v => do
    let steps ← stepList v
    groupWith inline (prepareStep (groupConditionals inline depth)) steps.length steps

end Loom.Outline
