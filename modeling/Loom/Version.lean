import Loom.Text.Pattern
import Loom.Value.Access

/-!
# Versions

Three numbers separated by points, read from the beginning of a text; what follows
them is not looked at. A text that does not begin so counts as version zero.
-/

namespace Loom

open Loom.Text Loom.Text.Pattern

structure Version where
  major : Nat
  minor : Nat
  patch : Nat
  deriving DecidableEq

namespace Version

def zero : Version := ⟨0, 0, 0⟩

def number (name : String) : Pattern :=
  named name (oneOf [text "0", one (fun c => '1' ≤ c && c ≤ '9') ++ many isDigit])

def pattern : Pattern :=
  number "major" ++ text "." ++ number "minor" ++ text "." ++ number "patch"

def readNumber (s : String) : Except Error Nat :=
  match Decimal.readInt? s with
  | some i => .ok i.toNat
  | none => .error (.longNumeral s.length)

def ofText (s : String) : Except Error Version :=
  match pattern.match? s with
  | none => .ok zero
  | some m => do
    pure ⟨← readNumber (m.group "major"), ← readNumber (m.group "minor"),
      ← readNumber (m.group "patch")⟩

def ofValue (v : Value) : Except Error Version :=
  match v.orElse "" with
  | .str s => ofText s
  | v => .error (.notText v.kind)

def isAfter (a b : Version) : Bool :=
  a.major > b.major || (a.major == b.major &&
    (a.minor > b.minor || (a.minor == b.minor && a.patch > b.patch)))

end Version

end Loom
