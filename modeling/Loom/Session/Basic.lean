import Loom.Capability
import Loom.Expr.Eval
import Loom.Receipt
import Loom.Text.Pattern
import Loom.Value.Shown
import Loom.Web.Fetch

/-!
# Sessions

A session runs modules one after the other. It holds the variables and the
receipt of the module that runs, the modules that can be called, and the
capabilities in force. What it prints and which addresses it fetches is kept too,
so that a run is a function of the session.

A session that has not run a module yet cannot evaluate expressions.
-/

namespace Loom

open Loom.Text Loom.Web

structure Session where
  capabilities : Value
  enforce : Bool
  registry : Fields Value
  network : Network
  env : Env
  ready : Bool
  receipt : Receipt
  printed : List String
  fetched : List String

abbrev Run := ExceptT Error (StateM Session)

namespace Session

def start (capabilities : Value) (enforce : Bool) (registry : Fields Value) (network : Network) :
    Session :=
  ⟨capabilities.orElse (.obj []), enforce, registry, network, [], false, .empty, [], []⟩

def output (s : Session) : String :=
  String.join (s.printed.reverse.map (· ++ "\n"))

def module? (s : Session) (name : String) : Option Value :=
  match s.registry.get? name with
  | some m => some m
  | none => (s.registry.find? fun m => slug m.1 == slug name).map Prod.snd

/-- The part of a capability document that lists capabilities. -/
def capabilityRoot (doc : Value) : Except Error Value := do
  if ← doc.hasMember "capabilities" then
    let inner ← doc.require "capabilities"
    if inner.isObj then pure inner else pure (if doc.isObj then doc else .obj [])
  else pure (if doc.isObj then doc else .obj [])

def allowedDomains (doc : Value) : Except Error (List String) := do
  let root ← capabilityRoot doc
  match (root.field "network:fetch").field "domains" with
  | .list ds => pure (ds.map fun d => lower d.display)
  | _ => pure []

end Session

namespace Run

def liftExcept (r : Except Error α) : Run α :=
  match r with
  | .ok a => pure a
  | .error e => throw e

def change (f : Session → Session) : Run Unit :=
  modify f

def bindName (name : String) (v : Value) : Run Unit :=
  change fun s => { s with env := s.env.put name v }

def record (lineage : Lineage) (entry : Fields Value) : Run Unit :=
  change fun s => { s with receipt := s.receipt.addStep lineage entry }

def log (entry : Value) : Run Unit :=
  change fun s => { s with receipt := s.receipt.addLog entry }

def print (line : String) : Run Unit :=
  change fun s => { s with printed := line :: s.printed }

def evaluate (v : Value) : Run Value := do
  let s ← get
  if s.ready then liftExcept (Expr.eval s.env v)
  else throw (.noMember "Interpreter" "evaluator")

/-- The value of an argument: objects are expressions, anything else stands for
    itself. -/
def argument (v : Value) : Run Value :=
  if v.isObj then evaluate v else pure v

end Run

end Loom
