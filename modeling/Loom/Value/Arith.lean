import Loom.Error
import Loom.Value.Equal

/-!
# Arithmetic on Values

The operators of the language on dynamic values. Integers are exact; an integer
that meets a float becomes one, and fails if no float is that large. Division
always gives a float, rounded once. Texts and lists are joined by `+` and
repeated by `*`. Booleans count as zero and one.

Numbers are ordered by what they denote, without rounding; texts by their
characters; lists by their first items that differ.
-/

namespace Loom.Value

open Loom.Decimal

inductive Numeric where
  | int (i : Int)
  | float (x : Float)

def numeric? : Value → Option Numeric
  | float x => some (.float x)
  | nan _ => some (.float Decimal.nan)
  | v => v.integer?.map .int

def Numeric.toFloat : Numeric → Except Error Float
  | int i =>
    match ofInt? i with
    | some x => .ok x
    | none => .error .intTooLarge
  | float x => .ok x

def arith (ints : Int → Int → Int) (floats : Float → Float → Float) (a b : Numeric) :
    Except Error Value :=
  match a, b with
  | .int i, .int j => .ok (.int (ints i j))
  | _, _ => do
    let x ← a.toFloat
    let y ← b.toFloat
    pure (.float (floats x y))

/-- Division of integers, rounded once. -/
def divInts (i j : Int) : Except Error Value :=
  if j == 0 then .error .divisionByZero
  else
    let negative := (i < 0) != (j < 0)
    match ofRatio? negative i.natAbs j.natAbs with
    | some x => .ok (.float x)
    | none => .error .quotientTooLarge

def divNumeric (a b : Numeric) : Except Error Value :=
  match a, b with
  | .int i, .int j => divInts i j
  | _, _ => do
    let x ← a.toFloat
    let y ← b.toFloat
    if y == 0.0 then throw .floatDivisionByZero else pure (.float (x / y))

def add (a b : Value) : Except Error Value :=
  match a.numeric?, b.numeric? with
  | some x, some y => arith (· + ·) (· + ·) x y
  | _, _ =>
    match a, b with
    | str s, str t => .ok (.str (s ++ t))
    | list xs, list ys => .ok (.list (xs ++ ys))
    | bytes xs, bytes ys => .ok (.bytes (xs ++ ys))
    | str _, _ => .error (.concat .str b.kind)
    | list _, _ => .error (.concat .list b.kind)
    | bytes _, _ => .error (.concat .bytes b.kind)
    | _, _ => .error (.operands "+" a.kind b.kind)

def sub (a b : Value) : Except Error Value :=
  match a.numeric?, b.numeric? with
  | some x, some y => arith (· - ·) (· - ·) x y
  | _, _ => .error (.operands "-" a.kind b.kind)

/-- The first count that a repetition cannot take; counts from its negative on are taken. -/
def repetitionLimit : Int := 0x8000000000000000

/-- A repetition that gives more items than this finds no room. -/
def itemLimit : Nat := 0x200000000

/-- How often a sequence of some size is repeated. A count below zero is none, and
    nothing need not be repeated. `overlong` is the fault of a size that cannot even
    be counted. -/
def repetitions (size : Nat) (count : Int) (overlong : Error) : Except Error Nat :=
  if count ≥ repetitionLimit || count < -repetitionLimit then .error .repetitionCount
  else if size * count.toNat ≥ repetitionLimit.toNat then .error overlong
  else if size * count.toNat > itemLimit then .error .outOfMemory
  else .ok (if size == 0 then 0 else count.toNat)

def repeatItems (v : Value) (count : Int) : Except Error Value := do
  match v with
  | str s =>
    let n ← repetitions s.length count (.repetitionLength .str)
    pure (.str (Text.repeated s n))
  | list xs =>
    let n ← repetitions xs.length count .outOfMemory
    pure (.list (List.replicate n xs).flatten)
  | bytes bs =>
    let n ← repetitions bs.length count (.repetitionLength .bytes)
    pure (.bytes (List.replicate n bs).flatten)
  | v => pure v

def isSequence : Value → Bool
  | str _ => true
  | list _ => true
  | bytes _ => true
  | _ => false

def mul (a b : Value) : Except Error Value :=
  match a.numeric?, b.numeric? with
  | some x, some y => arith (· * ·) (· * ·) x y
  | _, _ =>
    if a.isSequence then
      match b.integer? with
      | some n => a.repeatItems n
      | none => .error (.repetition b.kind)
    else if b.isSequence then
      match a.integer? with
      | some n => b.repeatItems n
      | none => .error (.repetition a.kind)
    else .error (.operands "*" a.kind b.kind)

def div (a b : Value) : Except Error Value :=
  match a.numeric?, b.numeric? with
  | some x, some y => divNumeric x y
  | _, _ => .error (.operands "/" a.kind b.kind)

/-- How two floats compare, `none` if one is not a number. -/
def compareFloats? (x y : Float) : Option Ordering :=
  if x < y then some .lt else if x > y then some .gt else if x == y then some .eq else none

/-- How two numbers compare, `none` if one is not a number. -/
def Numeric.compare? (a b : Numeric) : Option Ordering :=
  match a, b with
  | int i, int j => some (compare i j)
  | float x, float y => compareFloats? x y
  | int i, float y => compareInt? i y
  | float x, int j => (compareInt? j x).map Ordering.swap

inductive Order where
  | lt | le | gt | ge

def Order.symbol : Order → String
  | lt => "<"
  | le => "<="
  | gt => ">"
  | ge => ">="

/-- Whether an order holds of two things that compare so. What cannot be
    compared stands in no order. -/
def Order.holds (o : Order) (c : Option Ordering) : Bool :=
  match o, c with
  | _, none => false
  | lt, some c => c == .lt
  | le, some c => c != .gt
  | gt, some c => c == .gt
  | ge, some c => c != .lt

def compareScalars (o : Order) (a b : Value) : Except Error Bool :=
  match a.numeric?, b.numeric? with
  | some x, some y => .ok (o.holds (x.compare? y))
  | _, _ =>
    match a, b with
    | str s, str t => .ok (o.holds (some (compare s t)))
    | bytes xs, bytes ys => .ok (o.holds (some (compareOfLessAndEq xs ys)))
    | _, _ => .error (.ordering o.symbol a.kind b.kind)

mutual

def compareBy (o : Order) : Value → Value → Except Error Bool
  | list xs, list ys => compareLists o xs ys
  | a, b => compareScalars o a b

/-- Lists are ordered by their first items that differ, else by length. -/
def compareLists (o : Order) : List Value → List Value → Except Error Bool
  | [], ys => .ok (o.holds (some (if ys.isEmpty then .eq else .lt)))
  | _ :: _, [] => .ok (o.holds (some .gt))
  | x :: xs, y :: ys =>
    if isOneNan x y || x.same y then compareLists o xs ys else compareBy o x y

end

/-- A number as an operand of a sign; `none` for any other value. -/
def negate? (v : Value) : Option Value :=
  match v.numeric? with
  | some (.int i) => some (.int (-i))
  | some (.float x) => some (.float (-x))
  | none => none

def plus? (v : Value) : Option Value :=
  match v.numeric? with
  | some (.int i) => some (.int i)
  | some (.float x) => some (.float x)
  | none => none

/-- The integer that a number denotes, a fraction cut off. -/
def truncated (v : Value) : Except Error Int :=
  match v with
  | float x =>
    match view x with
    | .nan => .error .nanToInt
    | .infinite _ => .error .infinityToInt
    | .finite .. => .ok ((truncate? x).getD 0)
  | nan _ => .error .nanToInt
  | v =>
    match v.integer? with
    | some i => .ok i
    | none => .error (.notNumeric "int" v.kind)

/-- The numeral that a text or bytes hold. Bytes are read as ASCII; a byte above
    it makes them no numeral. -/
def numeral? : Value → Option String
  | str s => some s
  | bytes bs =>
    some (if bs.all (· < 128) then String.ofList (bs.map fun b => Char.ofNat b.toNat) else "")
  | _ => none

def badInteger (v : Value) (numeral : String) : Error :=
  match digitsOf? (numeralOf numeral).2 with
  | some ds => .longNumeral ds.length
  | none => .badInt v

def toInt (v : Value) : Except Error Int :=
  match v.numeral? with
  | some s =>
    match readInt? s with
    | some i => .ok i
    | none => .error (badInteger v s)
  | none => v.truncated

/-- The float that a number or a numeral denotes. -/
def toFloat (v : Value) : Except Error Float :=
  match v.numeral? with
  | some s =>
    match readFloat? s with
    | some x => .ok x
    | none => .error (.badFloat v)
  | none =>
    match v.numeric? with
    | some n => n.toFloat
    | none => .error (.notNumeric "float" v.kind)

end Loom.Value
