import Loom.Error
import Loom.Value.Equal

/-!
# Reaching into Values

Documents come from outside, so a value may be of any sort where an object, a
list or a text is meant. These operations give the part asked for, or the fault
that says why the value has no such part.
-/

namespace Loom.Value

/-- The field of an object if it is present. Only objects have fields. -/
def lookup? (v : Value) (name : String) : Except Error (Option Value) :=
  match v with
  | obj fs => .ok (Fields.get? fs name)
  | v => .error (.noMember v.kind.name "get")

/-- The field of an object, null if it is absent. -/
def lookup (v : Value) (name : String) : Except Error Value :=
  (v.lookup? name).map (·.getD .null)

def lookupD (v : Value) (name : String) (default : Value) : Except Error Value :=
  (v.lookup? name).map (·.getD default)

/-- The field of an object that has to be present. -/
def require (v : Value) (name : String) : Except Error Value :=
  match v with
  | obj fs =>
    match Fields.get? fs name with
    | some w => .ok w
    | none => .error (.noField name)
  | list _ => .error (.badIndex .list)
  | str _ => .error (.badIndex .str)
  | bytes _ => .error (.badIndex .bytes)
  | v => .error (.notSubscriptable v.kind)

/-- The items of a list, the characters of a text, the names of an object. -/
def items (v : Value) : Except Error (List Value) :=
  match v with
  | list xs => .ok xs
  | str s => .ok (s.toList.map fun c => .str (String.singleton c))
  | obj fs => .ok (fs.map fun f => .str f.1)
  | bytes bs => .ok (bs.map fun b => .int b.toNat)
  | v => .error (.notIterable v.kind)

def joinable (v : Value) : Except Error (List Value) :=
  match v.items with
  | .ok xs => .ok xs
  | .error _ => .error .notJoinable

/-- Whether a name is a field of an object, an item of a list or a part of a
    text. -/
def hasMember (v : Value) (name : String) : Except Error Bool :=
  match v with
  | obj fs => .ok (Fields.has fs name)
  | list xs => .ok (isIn (.str name) xs)
  | str s => .ok (Text.contains s name)
  | v => .error (.notContainer v.kind)

def toText (v : Value) (member : String) : Except Error String :=
  match v with
  | str s => .ok s
  | v => .error (.noMember v.kind.name member)

/-- A value as a name of a field. Lists and objects cannot be names; other
    scalars name no field that a text names. -/
def toName (v : Value) : Except Error (Option String) :=
  match v with
  | str s => .ok (some s)
  | list _ => .error (.unhashable .list)
  | obj _ => .error (.unhashable .obj)
  | _ => .ok none

def toPair (index : Nat) (v : Value) : Except Error (String × Value) :=
  match v.items with
  | .error _ => .error (.pairKind index)
  | .ok [k, w] =>
    match k with
    | str s => .ok (s, w)
    | list _ => .error (.unhashable .list)
    | obj _ => .error (.unhashable .obj)
    | k => .ok (k.display, w)
  | .ok xs => .error (.badPair index xs.length)

def pairsFrom (index : Nat) (acc : Fields Value) : List Value → Except Error (Fields Value)
  | [] => .ok acc
  | v :: rest => do
    let (k, w) ← toPair index v
    pairsFrom (index + 1) (acc.put k w) rest

def toFields (v : Value) : Except Error (Fields Value) :=
  match v with
  | obj fs => .ok fs
  | v => do pairsFrom 0 [] (← v.items)

/-- The fields of a value that counts as true, none of any other. -/
def toFieldsOrNone (v : Value) : Except Error (Fields Value) :=
  if v.truthy then v.toFields else .ok []

def length (v : Value) : Except Error Nat :=
  match v with
  | list xs => .ok xs.length
  | str s => .ok s.length
  | obj fs => .ok fs.length
  | bytes bs => .ok bs.length
  | v => .error (.noLength v.kind)

end Loom.Value
