import Loom.Text.Charset
import Loom.Text.Utf8
import Loom.Xml.Scan

/-!
# The Declaration of a Document

A document may begin with a declaration that tells its version, its encoding and
whether it stands alone, in this order. The version is required and may be any.
-/

namespace Loom.Xml

structure Declaration where
  encoding : Option String := none
  standsAlone : Bool := false

def setting? (cs : List Char) : Option (Option (String × String) × List Char) :=
  match cs with
  | [] => some (none, [])
  | c :: _ =>
    if !isSpace c then none
    else
      match skipSpace cs with
      | [] => some (none, [])
      | cs => do
        let name := cs.takeWhile fun c => c != '=' && !isSpace c
        let rest ← after? "=" (skipSpace (cs.drop name.length))
        let (value, rest) ← quotedText? (skipSpace rest)
        if value.all fun c => c.isAlphanum || c == '.' || c == '_' || c == '-' then
          some (some (String.ofList name, String.ofList value), rest)
        else none

/-- The declaration that settings make. Each may come only once and in its turn. -/
def ofSettings? (settings : List (String × String)) : Option Declaration :=
  let alone? (value : String) : Option Bool :=
    if value == "yes" then some true else if value == "no" then some false else none
  let isName (value : String) : Bool := (value.toList.head?.map Char.isAlpha).getD false
  match settings with
  | [("version", _)] => some {}
  | [("version", _), ("encoding", e)] => if isName e then some ⟨some e, false⟩ else none
  | [("version", _), ("standalone", s)] => (alone? s).map (⟨none, ·⟩)
  | [("version", _), ("encoding", e), ("standalone", s)] =>
    if isName e then (alone? s).map (⟨some e, ·⟩) else none
  | _ => none

def settings? : Nat → List Char → Option (List (String × String))
  | 0, cs => if (skipSpace cs).isEmpty then some [] else none
  | n + 1, cs => do
    match ← setting? cs with
    | (none, _) => some []
    | (some s, rest) => (settings? n rest).map (s :: ·)

/-- The declaration at the start of a document and the number of its characters. A
    document may do without. -/
def declaration? (cs : List Char) : Option (Declaration × Nat) :=
  match after? "<?xml" cs with
  | none => some ({}, 0)
  | some rest =>
    if (rest.head?.map isNameChar).getD false then some ({}, 0)
    else do
      let (inside, _) ← upTo? "?>" rest
      let d ← ofSettings? (← settings? 3 inside)
      some (d, inside.length + 7)

open Loom.Text (Charset CharsetProblem)

/-!
### Encodings of Documents

A document is a row of bytes. Its first two bytes tell whether a character takes one
byte or two, and its declaration, which is written in ASCII, may name the encoding
of all that follows.
-/

inductive Fault where
  | malformed
  | charset (p : CharsetProblem) (name : String)

inductive Encoding where
  | unicode
  /-- Two bytes for a unit, with the high one first or last. -/
  | units (highFirst : Bool)
  | charset (s : Charset)

namespace Encoding

def width : Encoding → Nat
  | units _ => 2
  | _ => 1

/-- The encoding that a document begins with, and the bytes after its mark. A null
    byte can only be half of a unit. -/
def ofBytes (bs : List UInt8) : Encoding × List UInt8 :=
  match bs with
  | 0xEF :: 0xBB :: 0xBF :: rest => (unicode, rest)
  | 0xFE :: 0xFF :: rest => (units true, rest)
  | 0xFF :: 0xFE :: rest => (units false, rest)
  | 0 :: _ :: _ => (units true, bs)
  | _ :: 0 :: _ => (units false, bs)
  | _ => (unicode, bs)

def unitsOf? (highFirst : Bool) : List UInt8 → Option (List Nat)
  | [] => some []
  | [_] => none
  | a :: b :: rest =>
    let unit := if highFirst then 256 * a.toNat + b.toNat else 256 * b.toNat + a.toNat
    (unitsOf? highFirst rest).map (unit :: ·)

/-- The characters that units make; large ones take a pair. -/
def charsOfUnits? : List Nat → Option (List Char)
  | [] => some []
  | [u] => if 0xD800 ≤ u && u < 0xE000 then none else some [Char.ofNat u]
  | u :: v :: rest =>
    if 0xD800 ≤ u && u < 0xDC00 then
      if 0xDC00 ≤ v && v < 0xE000 then
        let code := 0x10000 + 0x400 * (u - 0xD800) + (v - 0xDC00)
        (charsOfUnits? rest).map (Char.ofNat code :: ·)
      else none
    else if 0xDC00 ≤ u && u < 0xE000 then none
    else (charsOfUnits? (v :: rest)).map (Char.ofNat u :: ·)

def asciiStart (e : Encoding) (bs : List UInt8) : List Char :=
  match e, bs with
  | units true, 0 :: b :: rest | units false, b :: 0 :: rest =>
    if b < 128 then Char.ofNat b.toNat :: asciiStart e rest else []
  | units _, _ => []
  | _, b :: rest => if b < 128 then Char.ofNat b.toNat :: asciiStart e rest else []
  | _, [] => []

def decode? (e : Encoding) (bs : List UInt8) : Option (List Char) :=
  match e with
  | unicode => some (Text.decodeUtf8 bs).toList
  | units highFirst => do charsOfUnits? (← unitsOf? highFirst bs)
  | charset s => bs.mapM s.char?

/-- The encoding that a declaration names, for a document that begins with `e`. It
    has to agree on the bytes that a character takes. -/
def named (e : Encoding) (name : String) : Except Fault Encoding :=
  let single (s : Encoding) : Except Fault Encoding :=
    if e.width == 1 then .ok s else .error .malformed
  match String.ofList (name.toList.map Char.toUpper), e with
  | "UTF-8", _ => single unicode
  | "ISO-8859-1", _ => single (charset .latin)
  | "US-ASCII", _ => single (charset .ascii)
  | "UTF-16", units b => .ok (units b)
  | "UTF-16BE", units true => .ok e
  | "UTF-16LE", units false => .ok e
  | "UTF-16", _ | "UTF-16BE", _ | "UTF-16LE", _ => .error .malformed
  | _, _ =>
    match Charset.named name with
    | .ok s => .ok (charset s)
    | .error .foreign => .error .malformed
    | .error p => .error (.charset p name)

end Encoding

end Loom.Xml
