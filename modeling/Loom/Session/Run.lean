import Loom.Session.Step

/-!
# Running a Module

A run starts with the inputs as its variables and an empty receipt, and takes the
steps of the module. Blocks inside blocks and modules that call modules count
against one limit on depth.
-/

namespace Loom

namespace Run

def unwrap (m : Value) : Except Error Value := do
  let inner ← m.lookup "module"
  pure (if inner.isObj then inner else m)

def flowOf (m : Value) : Except Error Value := do
  let direct := (m.field "flow").orElse (m.field "steps")
  if direct.truthy then pure direct
  else
    let inner ← (m.fieldD "block" (.obj [])).lookup "steps"
    pure (inner.orElse (.list []))

def begin (inputs : Fields Value) : Run Unit :=
  change fun s => { s with env := inputs, ready := true, receipt := s.receipt.restart }

def moduleWith (take : Value → Run Outcome) (m : Value) (inputs : Fields Value) : Run Value := do
  begin inputs
  let out ← block take (Step.blockOf (← liftExcept (flowOf m)))
  change fun s => { s with receipt := { s.receipt with env := s.env } }
  pure (out.getD .null)

/-- Take a step with at most `depth` levels of blocks and calls. -/
def takeStep : Nat → Value → Run Outcome
  | 0, _ => throw .tooDeep
  | depth + 1, v =>
    step (takeStep depth) (fun m inputs => do
      moduleWith (takeStep depth) (← liftExcept (unwrap m)) inputs) v

/-- The levels of blocks and calls that a run may reach. -/
def depthLimit : Nat := 400

/-- Run a module on inputs. Settings that are given stay in force afterwards. -/
def runModule (m inputs : Value) (enforce : Option Bool) (capabilities : Option Value) :
    Run Value := do
  let m ← liftExcept (unwrap m)
  change fun s => { s with
    capabilities := capabilities.getD s.capabilities
    enforce := enforce.getD s.enforce }
  let inputs ← liftExcept inputs.toFieldsOrNone
  change fun s => { s with env := inputs }
  moduleWith (takeStep depthLimit) m inputs

end Run

def Session.run (s : Session) (c : Run α) : Except Error α × Session :=
  ExceptT.run c s

end Loom
