import Loom.Error

/-!
# Circuit Breakers

A breaker counts the failures of a service within a window of time. With enough of
them it opens, and the service is left alone until a cooldown has passed. A success,
or the first question after the cooldown, closes it and forgets the failures.

Time is any type with a difference and an order, so that the rules do not depend
on how a clock counts.
-/

namespace Loom.Guard

structure Breaker (τ : Type) where
  fails : List τ
  isOpen : Bool
  openedAt : τ

/-- The times that a failure is told at. The clock is read anew for each of them. -/
structure Moments (τ : Type) where
  failedAt : τ
  cleanedAt : τ
  openedAt : τ

namespace Breaker

variable {τ : Type}

def fresh (zero : τ) : Breaker τ := ⟨[], false, zero⟩

def note (b : Breaker τ) (now : τ) : Breaker τ :=
  { b with fails := b.fails ++ [now] }

def isFull (b : Breaker τ) (threshold : Int) : Bool :=
  threshold ≤ b.fails.length

def trip (b : Breaker τ) (threshold : Int) (now : τ) : Breaker τ :=
  if b.isFull threshold then { b with isOpen := true, openedAt := now } else b

def close (b : Breaker τ) : Breaker τ :=
  { b with fails := [], isOpen := false }

def succeed (b : Breaker τ) : Breaker τ := b.close

variable [Sub τ] [LE τ] [LT τ] [DecidableLE τ] [DecidableLT τ]

def clean (b : Breaker τ) (now window : τ) : Breaker τ :=
  { b with fails := b.fails.filter fun t => decide (now - window ≤ t) }

/-- A breaker that was told of a failure and has forgotten those that are too old. -/
def noteFresh (b : Breaker τ) (window : τ) (times : Moments τ) : Breaker τ :=
  (b.note times.failedAt).clean times.cleanedAt window

/-- A failure: it is noted, old ones are forgotten, and the breaker opens if enough
    are left. -/
def fail (b : Breaker τ) (threshold : Int) (window : τ) (times : Moments τ) : Breaker τ :=
  (b.noteFresh window times).trip threshold times.openedAt

def ask (b : Breaker τ) (cooldown now : τ) : Bool × Breaker τ :=
  if !b.isOpen then (false, b)
  else if now - b.openedAt < cooldown then (true, b)
  else (false, b.close)

end Breaker

abbrev Breakers (τ : Type) := Fields (Breaker τ)

namespace Breakers

variable {τ : Type}

def ofKey (bs : Breakers τ) (zero : τ) (key : String) : Breaker τ :=
  bs.getD key (.fresh zero)

def succeed (bs : Breakers τ) (zero : τ) (key : String) : Breakers τ :=
  bs.put key (bs.ofKey zero key).succeed

variable [Sub τ] [LE τ] [LT τ] [DecidableLE τ] [DecidableLT τ]

def fail (bs : Breakers τ) (zero : τ) (key : String) (threshold : Int) (window : τ)
    (times : Moments τ) : Breakers τ :=
  bs.put key ((bs.ofKey zero key).fail threshold window times)

/-- Ask the breaker of a key. Asking makes it known. -/
def ask (bs : Breakers τ) (zero : τ) (key : String) (cooldown now : τ) : Bool × Breakers τ :=
  let (isOpen, b) := (bs.ofKey zero key).ask cooldown now
  (isOpen, bs.put key b)

end Breakers

/-!
### Guarded Calls

A call that always answers. The primary is tried and retried with growing pauses; if
it keeps failing, or its breaker is open, the last good value, a fallback or a
default stands in. The answer tells where its value came from.

A service answers every invocation by a reply, which takes time and is a value or a
failure. The clock moves while a service works and during pauses, and it may move
between any two of its readings.

A setting that makes no sense is found out when it is needed. It then ends the call
instead of an answer, unless a service is being tried: there it is one more failure.
-/

structure Reply (τ : Type) where
  tick : Option τ
  result : Except String Value

abbrev Service (τ : Type) := Nat → Reply τ

/-- What breakers and last good values are known by. -/
structure Key where
  /-- The text it is listed under, or why it cannot be listed. -/
  text : Except Error String
  /-- Whether it is looked up. An empty key is not, though values are listed under
      it. -/
  isUsed : Bool

def Key.ofText (s : String) : Key := ⟨.ok s, !s.isEmpty⟩

/-- The settings of a call. Any but the first and the keys may make no sense. -/
structure Plan (τ : Type) where
  default : Value
  budget : Except Error Int
  /-- The pause after a failure, by its number from one. -/
  pause : Nat → Except Error τ
  breakerKey : Option Key
  threshold : Except Error Int
  window : Except Error τ
  cooldown : Except Error τ
  /-- The key of the last good value; without one the breaker's is used. -/
  cacheKey : Option Key
  lifetime : Except Error τ
  preferCache : Bool
  fallback : Option (Reply τ)

inductive Source where
  | primary | cache | fallback | synthetic
  deriving DecidableEq

def Source.name : Source → String
  | primary => "primary"
  | cache => "cache"
  | fallback => "fallback"
  | synthetic => "synthetic"

structure Envelope where
  reason : String
  error : Option String
  retries : Nat
  latency : Int
  source : Source
  value : Value

namespace Envelope

def isDegraded (e : Envelope) : Bool :=
  e.source != .primary

def status (e : Envelope) : String :=
  if e.isDegraded then "synthetic_ok" else "ok"

def fields (e : Envelope) : Fields Value :=
  [("status", e.status), ("degraded", e.isDegraded), ("reason", e.reason),
    ("error", (e.error.map Value.str).getD .null), ("retries", .int e.retries),
    ("latency_ms", .int e.latency), ("source", e.source.name), ("value", e.value)]

end Envelope

structure World (τ : Type) where
  now : τ
  breakers : Breakers τ
  cache : Fields (τ × Value)
  pauses : List τ
  lapses : List τ := []

/-- How time is counted: where a clock starts, and milliseconds, unless a time is
    beyond counting. -/
structure Clock (τ : Type) where
  zero : τ
  milliseconds : τ → Except Error Int

section Calls

variable {τ : Type}

def Plan.breaker? (p : Plan τ) : Option Key :=
  p.breakerKey.filter Key.isUsed

/-- The key of the last good value. -/
def Plan.label (p : Plan τ) : Option Key :=
  match p.cacheKey.filter Key.isUsed with
  | some k => some k
  | none => p.breakerKey

variable [Add τ] [Sub τ] [LE τ] [LT τ] [DecidableLE τ] [DecidableLT τ]

namespace World

def read (w : World τ) : τ × World τ :=
  match w.lapses with
  | [] => (w.now, w)
  | t :: rest => (w.now + t, { w with now := w.now + t, lapses := rest })

def invoke (w : World τ) (r : Reply τ) : World τ :=
  match r.tick with
  | some t => { w with now := w.now + t }
  | none => w

def pause (w : World τ) (t : τ) : World τ :=
  { w with now := w.now + t, pauses := w.pauses ++ [t] }

def remember (w : World τ) (label : Option Key) (v : Value) : Except Error Unit × World τ :=
  match label with
  | none => (.ok (), w)
  | some k =>
    let (now, w) := w.read
    match k.text with
    | .error e => (.error e, w)
    | .ok name => (.ok (), { w with cache := w.cache.put name (now, v) })

/-- The last good value, if it is not null and not too old. -/
def lastGood (w : World τ) (label : Option Key) (lifetime : Except Error τ) :
    Except Error (Option Value) × World τ :=
  match label.filter Key.isUsed with
  | none => (.ok none, w)
  | some k =>
    match k.text.map w.cache.get? with
    | .error e => (.error e, w)
    | .ok none => (.ok none, w)
    | .ok (some (t, v)) =>
      let (now, w) := w.read
      (lifetime.map fun limit => if now - t ≤ limit && !v.isNull then some v else none, w)

def ask (w : World τ) (zero : τ) (key : String) (cooldown : Except Error τ) :
    Except Error Bool × World τ :=
  let b := w.breakers.ofKey zero key
  if !b.isOpen then (.ok false, { w with breakers := w.breakers.put key b })
  else
    let (now, w) := w.read
    match cooldown with
    | .error e => (.error e, { w with breakers := w.breakers.put key b })
    | .ok c =>
      let (isOpen, breakers) := w.breakers.ask zero key c now
      (.ok isOpen, { w with breakers })

/-- The times that a failure is told at if it happens now. -/
def moments (w : World τ) : Moments τ :=
  let (failedAt, w) := w.read
  let (cleanedAt, w) := w.read
  ⟨failedAt, cleanedAt, w.read.1⟩

/-- Tell a breaker of a failure. The clock is read a third time only if it opens. -/
def fail (w : World τ) (zero : τ) (key : String) (threshold : Except Error Int)
    (window : Except Error τ) : Except Error Unit × World τ :=
  let b := w.breakers.ofKey zero key
  let times := w.moments
  let w := w.read.2.read.2
  match window, threshold with
  | .ok s, .ok n =>
    let w := if (b.noteFresh s times).isFull n then w.read.2 else w
    (.ok (), { w with breakers := w.breakers.fail zero key n s times })
  | .error e, _ => (.error e, { w with breakers := w.breakers.put key (b.note times.failedAt) })
  | .ok s, .error e => (.error e, { w with breakers := w.breakers.put key (b.noteFresh s times) })

def succeed (w : World τ) (zero : τ) (key : String) : World τ :=
  { w with breakers := w.breakers.succeed zero key }

/-- The milliseconds since a call started. Without a start none are counted. -/
def spent (w : World τ) (clock : Clock τ) (startedAt : Option τ) : Except Error Int × World τ :=
  match startedAt with
  | none => (.ok 0, w)
  | some t =>
    let (now, w) := w.read
    (clock.milliseconds (now - t), w)

end World

/-- The value of a fallback that worked: it is remembered, and the time since the start,
    or else the fallback's own, has to be countable. -/
def fallBack (clock : Clock τ) (plan : Plan τ) (startedAt : Option τ) (r : Reply τ) (w : World τ) :
    Option (Value × Int) × World τ :=
  let (begun, w) := w.read
  let w := w.invoke r
  match r.result with
  | .error _ => (none, w)
  | .ok v =>
    match w.remember plan.label v with
    | (.error _, w) => (none, w)
    | (.ok _, w) =>
      let (spent, w) := w.spent clock (some (startedAt.getD begun))
      (spent.toOption.map fun t => (v, t), w)

/-- What stands in for the primary: the last good value, the fallback, or the default;
    and the time it took. -/
def standIn (clock : Clock τ) (plan : Plan τ) (startedAt : Option τ) (w : World τ) :
    Except Error (Source × Value × Int) × World τ :=
  let timed (source : Source) (v : Value) (w : World τ) :=
    let (spent, w) := w.spent clock startedAt
    (spent.map fun t => (source, v, t), w)
  match if plan.preferCache then w.lastGood plan.label plan.lifetime else (.ok none, w) with
  | (.error e, w) => (.error e, w)
  | (.ok (some v), w) => timed .cache v w
  | (.ok none, w) =>
    match plan.fallback with
    | none => timed .synthetic plan.default w
    | some r =>
      match fallBack clock plan startedAt r w with
      | (some (v, t), w) => (.ok (.fallback, v, t), w)
      | (none, w) => timed .synthetic plan.default w

def Source.phrase : Source → String
  | primary => ""
  | cache => "served from cache"
  | fallback => "served from fallback"
  | synthetic => "synthetic default"

/-- The answer while the breaker is open. Only a fallback takes time. -/
def answerOpen (clock : Clock τ) (plan : Plan τ) (w : World τ) :
    Except Error Envelope × World τ :=
  let (result, w) := standIn clock plan none w
  (result.map fun (source, v, spent) =>
    ⟨"circuit open; " ++ source.phrase, none, 0, spent, source, v⟩, w)

def answerFailed (clock : Clock τ) (plan : Plan τ) (startedAt : τ) (retries : Nat) (error : String)
    (w : World τ) : Except Error Envelope × World τ :=
  let (result, w) := standIn clock plan (some startedAt) w
  (result.map fun (source, v, spent) =>
    ⟨"primary failed; " ++ source.phrase, some error, retries, spent, source, v⟩, w)

/-- An invocation of the primary: its value and the time since the start, or the reason
    of its failure. A value that cannot be remembered is a failure, and so is a time
    beyond counting. -/
def invokePrimary (clock : Clock τ) (plan : Plan τ) (startedAt : τ) (r : Reply τ) (w : World τ) :
    Except String (Value × Int) × World τ :=
  let w := w.invoke r
  match r.result with
  | .error e => (.error e, w)
  | .ok v =>
    match w.remember plan.label v with
    | (.error e, w) => (.error e.message, w)
    | (.ok _, w) =>
      match w.spent clock (some startedAt) with
      | (.error e, w) => (.error e.message, w)
      | (.ok spent, w) => (.ok (v, spent), w)

inductive Attempt where
  | answered (e : Envelope)
  | failed (reason : String)

/-- An attempt at the primary, of whose end its breaker is told. `number` is how often the
    primary has failed, `key` its breaker. -/
def attempt (clock : Clock τ) (plan : Plan τ) (key : Option String) (startedAt : τ) (number : Nat)
    (r : Reply τ) (w : World τ) : Except Error Attempt × World τ :=
  match invokePrimary clock plan startedAt r w, key with
  | (.ok (v, spent), w), none => (.ok (.answered ⟨"", none, number, spent, .primary, v⟩), w)
  | (.ok (v, spent), w), some k =>
    (.ok (.answered ⟨"", none, number, spent, .primary, v⟩), w.succeed clock.zero k)
  | (.error reason, w), none => (.ok (.failed reason), w)
  | (.error reason, w), some k =>
    let (noted, w) := w.fail clock.zero k plan.threshold plan.window
    (noted.map fun _ => .failed reason, w)

/-- Try the primary, and again after a pause as long as retries are left. -/
def tryPrimary (clock : Clock τ) (plan : Plan τ) (key : Option String) (primary : Service τ)
    (startedAt : τ) (number : Nat) : Nat → World τ → Except Error Envelope × World τ
  | left, w =>
    match attempt clock plan key startedAt number (primary number) w, left with
    | (.error e, w), _ => (.error e, w)
    | (.ok (.answered e), w), _ => (.ok e, w)
    | (.ok (.failed reason), w), 0 => answerFailed clock plan startedAt number reason w
    | (.ok (.failed _), w), left + 1 =>
      match plan.pause (number + 1) with
      | .error e => (.error e, w)
      | .ok t => tryPrimary clock plan key primary startedAt (number + 1) left (w.pause t)

def callClosed (clock : Clock τ) (plan : Plan τ) (key : Option String) (primary : Service τ)
    (w : World τ) : Except Error Envelope × World τ :=
  let (startedAt, w) := w.read
  match plan.budget with
  | .error e => (.error e, w)
  | .ok budget => tryPrimary clock plan key primary startedAt 0 budget.toNat w

def call (clock : Clock τ) (plan : Plan τ) (primary : Service τ) (w : World τ) :
    Except Error Envelope × World τ :=
  match plan.breaker? with
  | none => callClosed clock plan none primary w
  | some k =>
    match k.text with
    | .error e => (.error e, w)
    | .ok key =>
      match w.ask clock.zero key plan.cooldown with
      | (.error e, w) => (.error e, w)
      | (.ok true, w) => answerOpen clock plan w
      | (.ok false, w) => callClosed clock plan (some key) primary w

end Calls

end Loom.Guard
