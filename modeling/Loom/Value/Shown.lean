import Loom.Error

/-!
# Values that Can Be Shown

An integer has a text only if it has no more digits than are written, and so has a
value that holds integers.
-/

namespace Loom.Value

def firstUnwritten : Nat := Nat.pow 10 Decimal.digitLimit

mutual

def hasLongInt : Value → Bool
  | int i => firstUnwritten ≤ i.natAbs
  | list xs => anyLongInt xs
  | obj fs => anyLongField fs
  | _ => false

def anyLongInt : List Value → Bool
  | [] => false
  | v :: rest => hasLongInt v || anyLongInt rest

def anyLongField : List (String × Value) → Bool
  | [] => false
  | (_, v) :: rest => hasLongInt v || anyLongField rest

end

def shown (v : Value) : Except Error String :=
  if v.hasLongInt then .error .longInteger else .ok v.display

end Loom.Value
