import Loom.Guard.Call
import Loom.Value.Arith

/-!
# Settings of Guarded Calls

Guarded calls on a clock that counts seconds, with their usual settings. Pauses
double from failure to failure up to a limit, and a random part of up to a quarter
is added, scaled by a jitter between zero and one.
-/

namespace Loom.Guard

def secondsClock : Clock Float where
  zero := 0.0
  milliseconds := fun t => (Value.float (t * 1000.0)).toInt

def numberOf (v : Value) : Float :=
  (v.toFloat.toOption).getD 0.0

def floatOf : Value → Float
  | .float x => x
  | _ => 0.0

def pauseAfter (first limit : Value) (jitter : Float) (number : Nat) : Except Error Float := do
  let grown ← first.mul (.int (Nat.pow 2 (number - 1)))
  let base := if ← Value.compareBy .lt grown limit then grown else limit
  let quarter := floatOf (← base.mul (.float 0.25))
  let total ← base.add (.float (0.0 + (quarter - 0.0) * jitter))
  pure (floatOf (← total.div (.float 1000.0)))

def unreachable : Int := Nat.pow 2 1024

def threshold (v : Value) : Except Error Int := do
  let _ ← Value.compareBy .ge (.int 0) v
  match v with
  | .float x =>
    match Decimal.view x with
    | .finite .. => (Value.float x.ceil).toInt
    | .infinite true => pure 0
    | _ => pure unreachable
  | .nan _ => pure unreachable
  | v => v.toInt

def span (v : Value) : Except Error Float := do
  let _ ← (Value.float 0.0).sub v
  v.toFloat

/-- A bound that spans are compared with. One that is too large for a float is beyond
    all of them. -/
def bound (v : Value) : Except Error Float := do
  let _ ← Value.compareBy .lt (.float 0.0) v
  match v.toFloat, v with
  | .ok x, _ => pure x
  | .error _, .int i => pure (Decimal.infinity (i < 0))
  | .error e, _ => throw e

/-- What a key is listed under. Values that hold others are no keys. -/
def keyOf (v : Value) : Option Key :=
  match v with
  | .null => none
  | .list _ => some ⟨.error (.unhashable .list), v.truthy⟩
  | .obj _ => some ⟨.error (.unhashable .obj), v.truthy⟩
  | v => some ⟨.ok v.display, v.truthy⟩

def settingNames : List String :=
  ["default", "retry_budget", "backoff_initial_ms", "backoff_max_ms", "cb_key", "cb_threshold",
    "cb_window_s", "cb_cooldown_s", "cache_key", "cache_ttl_s", "prefer_cache"]

def planOf (settings : Fields Value) (jitter : Float) (fallback : Option (Reply Float)) :
    Plan Float where
  default := settings.getD "default" .null
  budget := (settings.getD "retry_budget" (.int 2)).toInt
  pause := pauseAfter (settings.getD "backoff_initial_ms" (.int 50))
    (settings.getD "backoff_max_ms" (.int 400)) jitter
  breakerKey := keyOf (settings.getD "cb_key" .null)
  threshold := threshold (settings.getD "cb_threshold" (.int 5))
  window := span (settings.getD "cb_window_s" (.int 60))
  cooldown := bound (settings.getD "cb_cooldown_s" (.int 30))
  cacheKey := keyOf (settings.getD "cache_key" .null)
  lifetime := bound (settings.getD "cache_ttl_s" (.int 600))
  preferCache := (settings.getD "prefer_cache" (.bool true)).truthy
  fallback := fallback

def World.start : World Float := ⟨0.0, [], [], [], []⟩

/-- A guarded call under settings. One that no call has ends it. -/
def callWith (settings : Fields Value) (jitter : Float) (fallback : Option (Reply Float))
    (primary : Service Float) (w : World Float) : Except Error Envelope × World Float :=
  match settings.keys.find? fun k => !settingNames.contains k with
  | some name => (.error (.unknownSetting name), w)
  | none => call secondsClock (planOf settings jitter fallback) primary w

def callConstant (v : Value) (w : World Float) : Except Error Envelope × World Float :=
  callWith [] 0.0 none (fun _ => ⟨none, .ok v⟩) w

end Loom.Guard
