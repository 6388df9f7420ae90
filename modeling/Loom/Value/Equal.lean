import Loom.Decimal.Numeral
import Loom.Value.Basic

/-!
# Equality of Values

`Value.same` is the language's own `==`: numbers are equal when they denote the same number,
whatever their sort, and booleans count as zero and one. The order of fields does not matter.

What is not a number equals nothing, itself included. Inside lists and objects one
such thing on both sides makes no difference, so that they equal themselves.
-/

namespace Loom.Value

def integer? : Value → Option Int
  | bool b => some (if b then 1 else 0)
  | int i => some i
  | _ => none

def sameScalar (a b : Value) : Bool :=
  match a, b with
  | null, null => true
  | str s, str t => s == t
  | bytes x, bytes y => x == y
  | float x, float y => x == y
  | float x, v | v, float x =>
    match v.integer? with
    | some i => Decimal.compareInt? i x == some .eq
    | none => false
  | v, w =>
    match v.integer?, w.integer? with
    | some i, some j => i == j
    | _, _ => false

def isOneNan : Value → Value → Bool
  | nan a, nan b => a == b
  | _, _ => false

mutual

def same : Value → Value → Bool
  | list xs, list ys => sameList xs ys
  | obj fs, obj gs => fs.length == gs.length && sameFields fs gs
  | list _, _ => false
  | obj _, _ => false
  | a, b => sameScalar a b

def sameList : List Value → List Value → Bool
  | [], [] => true
  | v :: vs, w :: ws => (isOneNan v w || same v w) && sameList vs ws
  | _, _ => false

def sameFields : List (String × Value) → List (String × Value) → Bool
  | [], _ => true
  | (k, v) :: rest, gs =>
    (match Fields.get? gs k with
      | some w => isOneNan v w || same v w
      | none => false) && sameFields rest gs

end

def isIn (v : Value) (items : List Value) : Bool :=
  items.any fun w => w.same v

end Loom.Value
