import Loom.Command.Basic
import Loom.Guard.Settings

/-!
# Guarded Calls at Work

Three demonstrations: a service that recovers within its retries and one that does
not, a fallback that stands in for a service, and a breaker that opens and leaves
the last good value to answer.
-/

namespace Loom.Demo

open Loom.Text Loom.Command Loom.Guard

def envelopeText (e : Envelope) : String :=
  "CallEnvelope(" ++ join ", " (e.fields.map fun f => f.1 ++ "=" ++ f.2.inner) ++ ")"

def recovering (failures : Nat) (v : Value) : Service Float := fun n =>
  ⟨none, if n < failures then .error ("boom #" ++ Decimal.showInt (n + 1)) else .ok v⟩

def failing (reason : String) : Service Float := fun _ =>
  ⟨none, .error reason⟩

def constant (v : Value) : Service Float := fun _ =>
  ⟨none, .ok v⟩

def answered (settings : Fields Value) (fallback : Option (Reply Float)) (primary : Service Float)
    (w : World Float) : Command (Envelope × World Float) := do
  let (result, w) := callWith settings 0.0 fallback primary w
  pure (← result, w)

def retries : Command Unit := do
  print "Case A: succeed after 2 failures (should be status='ok', retries=2)"
  let (e, w) ← answered [("retry_budget", .int 3)] none (recovering 2 (.int 99)) .start
  print (envelopeText e)
  print "\nCase B: budget too small (should degrade with synthetic_ok, retries=1)"
  let (e, _) ← answered [("retry_budget", .int 1)] none (recovering 2 (.int 123)) w
  print (envelopeText e)

def fallback : Command Unit := do
  let key : Value := .str "module:fallback-demo"
  let settings := [("cb_key", key), ("cache_key", key), ("retry_budget", .int 0),
    ("prefer_cache", false)]
  let (e, _) ← answered settings (some ⟨none, .ok (.int 555)⟩) (failing "nope") .start
  print (envelopeText e)

def failTimes (settings : Fields Value) : Nat → World Float → Command (World Float)
  | 0, w => pure w
  | n + 1, w => do
    let (_, w) ← answered settings none (failing "x") w
    failTimes settings n w

def breaker : Command Unit := do
  let key : Value := .str "module:demo"
  let keys := [("cb_key", key), ("cache_key", key)]
  let (e, w) ← answered keys none (constant (.int 123)) .start
  print ("prime: " ++ envelopeText e)
  let settings := keys ++ [("retry_budget", .int 0)]
  let w ← failTimes settings 5 w
  let (e, _) ← answered settings none (failing "x") w
  print ("open: " ++ envelopeText e)

end Loom.Demo
