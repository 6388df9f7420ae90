import Loom.Decimal.Numeral
import Loom.Text.Quoted
import Loom.Value.Basic

/-!
# Display of Values

The text of a value as `Show` prints it and as reports quote it. A text stands
bare on its own and quoted inside a list or an object.
-/

namespace Loom.Value

open Loom.Text

def scalarText : Value → String
  | null => "None"
  | bool b => if b then "True" else "False"
  | int i => Decimal.showInt i
  | float x => Decimal.Layout.plain.show x
  | nan _ => Decimal.Layout.plain.nan
  | str s => quoted s
  | bytes bs => quotedBytes bs
  | list _ => "[]"
  | obj _ => "\x7b\x7d"

mutual

def inner : Value → String
  | list xs => "[" ++ join ", " (innerList xs) ++ "]"
  | obj fs => "\x7b" ++ join ", " (innerFields fs) ++ "\x7d"
  | v => scalarText v

def innerList : List Value → List String
  | [] => []
  | v :: rest => inner v :: innerList rest

def innerFields : List (String × Value) → List String
  | [] => []
  | (k, v) :: rest => (quoted k ++ ": " ++ inner v) :: innerFields rest

end

def display : Value → String
  | str s => s
  | v => inner v

end Loom.Value
