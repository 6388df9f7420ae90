import Loom.Value.Shown

/-!
# Writing JSON

Values as JSON text. A `Style` says how the text is laid out: over several
lines or on one, fields in their own order or sorted by name, characters above
ASCII as they are or as escapes.
-/

namespace Loom.Json

open Loom.Text

structure Style where
  indent : Option Nat := none
  sorted : Bool := false
  ascii : Bool := true
  itemEnd : String := ", "
  nameEnd : String := ": "

def Style.line : Style := {}

/-- One line without blanks, fields sorted. -/
def Style.compact : Style := ⟨none, true, true, ",", ":"⟩

def Style.pretty : Style := ⟨some 2, false, true, ",", ": "⟩

def Style.prettySorted : Style := ⟨some 2, true, true, ",", ": "⟩

/-- Two spaces per level, every character as it is. -/
def Style.prettyOpen : Style := ⟨some 2, false, false, ",", ": "⟩

def Style.prettySortedOpen : Style := ⟨some 2, true, false, ",", ": "⟩

def Style.lineOpen : Style := ⟨none, false, false, ", ", ": "⟩

def unitEscape (n : Nat) : List Char :=
  ['\\', 'u'] ++ hex 4 n

/-- A character above ASCII as one escape, or as two beyond the basic plane. -/
def wideEscape (c : Char) : List Char :=
  let n := c.toNat
  if n < 0x10000 then unitEscape n
  else
    let m := n - 0x10000
    unitEscape (0xD800 + m / 0x400) ++ unitEscape (0xDC00 + m % 0x400)

def escape (ascii : Bool) (c : Char) : List Char :=
  match c with
  | '"' => ['\\', '"']
  | '\\' => ['\\', '\\']
  | '\n' => ['\\', 'n']
  | '\r' => ['\\', 'r']
  | '\t' => ['\\', 't']
  | '\x08' => ['\\', 'b']
  | '\x0c' => ['\\', 'f']
  | c =>
    if c.toNat < 32 then unitEscape c.toNat
    else if ascii && c.toNat > 126 then wideEscape c
    else [c]

def writeText (ascii : Bool) (s : String) : String :=
  String.ofList ('"' :: s.toList.flatMap (escape ascii) ++ ['"'])

namespace Style

def lineBreak (st : Style) (level : Nat) : String :=
  match st.indent with
  | some n => "\n" ++ repeated " " (n * level)
  | none => ""

def bracket (st : Style) (level : Nat) (opening closing : String) (items : List String) :
    String :=
  if items.isEmpty then opening ++ closing
  else
    opening ++ st.lineBreak (level + 1) ++ join (st.itemEnd ++ st.lineBreak (level + 1)) items ++
      st.lineBreak level ++ closing

mutual

def writeAt (st : Style) (level : Nat) : Value → String
  | .null => "null"
  | .bool b => if b then "true" else "false"
  | .int i => Decimal.showInt i
  | .float x => Decimal.Layout.data.show x
  | .nan _ => Decimal.Layout.data.nan
  | .str s => writeText st.ascii s
  | .bytes bs => quotedBytes bs
  | .list xs => st.bracket level "[" "]" (writeItems st (level + 1) xs)
  | .obj fs =>
    let written := writeFields st (level + 1) fs
    let ordered :=
      if st.sorted then written.mergeSort fun a b => decide (a.1 ≤ b.1) else written
    st.bracket level "\x7b" "\x7d" (ordered.map Prod.snd)

def writeItems (st : Style) (level : Nat) : List Value → List String
  | [] => []
  | v :: rest => writeAt st level v :: writeItems st level rest

def writeFields (st : Style) (level : Nat) : List (String × Value) → List (String × String)
  | [] => []
  | (k, v) :: rest =>
    (k, writeText st.ascii k ++ st.nameEnd ++ writeAt st level v) :: writeFields st level rest

end

def write (st : Style) (v : Value) : String :=
  st.writeAt 0 v

end Style

/-!
### Writing Documents

JSON has no bytes, so a value that holds some has no JSON text.
-/

mutual

def isWritable : Value → Bool
  | .bytes _ => false
  | .list xs => areWritable xs
  | .obj fs => fieldsWritable fs
  | _ => true

def areWritable : List Value → Bool
  | [] => true
  | v :: rest => isWritable v && areWritable rest

def fieldsWritable : List (String × Value) → Bool
  | [] => true
  | (_, v) :: rest => isWritable v && fieldsWritable rest

end

def Style.encode (st : Style) (v : Value) : Except Error String :=
  if !isWritable v then .error (.notSerializable .bytes)
  else if v.hasLongInt then .error .longInteger
  else .ok (st.write v)

end Loom.Json
