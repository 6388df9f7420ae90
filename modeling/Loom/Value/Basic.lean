import Loom.Fields

/-!
# Values

The dynamic data that programs of the language compute with and that documents
are made of. Integers are unbounded and distinct from floats; objects keep the
order of their fields.
-/

namespace Loom

inductive Value where
  | null
  | bool (b : Bool)
  | int (i : Int)
  | float (x : Float)
  /-- Not a number, as a document holds it. It equals nothing, but two of one mark are
      one thing, written in one place. -/
  | nan (mark : Nat)
  | str (s : String)
  | bytes (bs : List UInt8)
  | list (items : List Value)
  | obj (fields : List (String × Value))

instance : Inhabited Value := ⟨.null⟩

instance : Coe String Value := ⟨.str⟩
instance : Coe Bool Value := ⟨.bool⟩
instance : Coe (List Value) Value := ⟨.list⟩

inductive Kind where
  | null | bool | int | float | str | bytes | list | obj
  deriving DecidableEq

def Kind.name : Kind → String
  | null => "NoneType"
  | bool => "bool"
  | int => "int"
  | float => "float"
  | str => "str"
  | bytes => "bytes"
  | list => "list"
  | obj => "dict"

namespace Value

def kind : Value → Kind
  | null => .null
  | bool _ => .bool
  | int _ => .int
  | float _ => .float
  | nan _ => .float
  | str _ => .str
  | bytes _ => .bytes
  | list _ => .list
  | obj _ => .obj

/-- Zero, the empty text, the empty list, the empty object and null count as
    false. -/
def truthy : Value → Bool
  | null => false
  | bool b => b
  | int i => i != 0
  | float x => !(x == 0.0)
  | nan _ => true
  | str s => !s.isEmpty
  | bytes bs => !bs.isEmpty
  | list xs => !xs.isEmpty
  | obj fs => !fs.isEmpty

def isNull : Value → Bool
  | null => true
  | _ => false

def isObj : Value → Bool
  | obj _ => true
  | _ => false

def isList : Value → Bool
  | list _ => true
  | _ => false

def isStr : Value → Bool
  | str _ => true
  | _ => false

def isBool : Value → Bool
  | bool _ => true
  | _ => false

/-- Integers and floats, and booleans, which count as zero and one. -/
def isNumber : Value → Bool
  | bool _ => true
  | int _ => true
  | float _ => true
  | nan _ => true
  | _ => false

def str? : Value → Option String
  | str s => some s
  | _ => none

def list? : Value → Option (List Value)
  | list xs => some xs
  | _ => none

def obj? : Value → Option (Fields Value)
  | obj fs => some fs
  | _ => none

/-- The field of an object, `none` if it is absent or the value is no object. -/
def field? (v : Value) (name : String) : Option Value :=
  match v with
  | obj fs => Fields.get? fs name
  | _ => none

/-- The field of an object, null if there is none. -/
def field (v : Value) (name : String) : Value :=
  (v.field? name).getD .null

/-- The field of an object, `default` if there is none. -/
def fieldD (v : Value) (name : String) (default : Value) : Value :=
  (v.field? name).getD default

/-- An object with a field written; any other value as it is. -/
def setField (v : Value) (name : String) (w : Value) : Value :=
  match v with
  | obj fs => obj (Fields.put fs name w)
  | v => v

/-- An object without a field; any other value as it is. -/
def dropField (v : Value) (name : String) : Value :=
  match v with
  | obj fs => obj (Fields.erase fs name)
  | v => v

def hasField (v : Value) (name : String) : Bool :=
  (v.field? name).isSome

/-- `a` unless it counts as false, else `b`. -/
def orElse (a b : Value) : Value :=
  if a.truthy then a else b

def isText (v : Value) (s : String) : Bool :=
  match v with
  | str t => t == s
  | _ => false

def isOneOf (v : Value) (ss : List String) : Bool :=
  match v with
  | str t => ss.contains t
  | _ => false

mutual

def depth : Value → Nat
  | list xs => depthList xs + 1
  | obj fs => depthFields fs + 1
  | _ => 0

def depthList : List Value → Nat
  | [] => 0
  | v :: rest => max (depth v) (depthList rest)

def depthFields : List (String × Value) → Nat
  | [] => 0
  | (_, v) :: rest => max (depth v) (depthFields rest)

def weight : Value → Nat
  | list xs => weightList xs + 1
  | obj fs => weightFields fs + 1
  | _ => 1

def weightList : List Value → Nat
  | [] => 0
  | v :: rest => weight v + weightList rest

def weightFields : List (String × Value) → Nat
  | [] => 0
  | (_, v) :: rest => weight v + weightFields rest

end

end Value

end Loom
