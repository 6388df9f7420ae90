import Loom.Decimal.Numeral
import Loom.Value.Basic

/-!
# Reading JSON

JSON text as a value. Fields keep their order; of two fields with one name the
later value stands in the earlier place. The names `NaN`, `Infinity` and
`-Infinity` are numbers. A text that is no JSON is refused with the place where
reading stopped and what was expected there.

Reading is a descent with a fuel that bounds the calls; each call moves on by at
least one character, so the length of the text suffices.
-/

namespace Loom.Json

open Loom

/-- Why a text is no JSON: what was wrong, and at which character. -/
structure Problem where
  reason : String
  position : Nat
  line : Nat
  column : Nat

def Problem.message (p : Problem) : String :=
  let n (k : Nat) := Decimal.showInt k
  p.reason ++ ": line " ++ n p.line ++ " column " ++ n p.column ++ " (char " ++ n p.position ++ ")"

structure Cursor where
  position : Nat
  rest : List Char

/-- What stopped the reading: a reason and a position, or a numeral that is too
    long. -/
inductive Stop where
  | expected (reason : String) (position : Nat)
  | longNumeral (digits : Nat)
  | tooDeep (what : String)

def isGap (c : Char) : Bool :=
  c == ' ' || c == '\t' || c == '\n' || c == '\r'

def Cursor.drop (c : Cursor) (n : Nat) : Cursor :=
  ⟨c.position + n, c.rest.drop n⟩

def Cursor.skipGap (c : Cursor) : Cursor :=
  let gap := c.rest.takeWhile isGap
  c.drop gap.length

def hexValue? (c : Char) : Option Nat :=
  if '0' ≤ c && c ≤ '9' then some (c.toNat - 48)
  else if 'a' ≤ c && c ≤ 'f' then some (c.toNat - 87)
  else if 'A' ≤ c && c ≤ 'F' then some (c.toNat - 55)
  else none

def unit? : List Char → Option Nat
  | [a, b, c, d] => do
    let a ← hexValue? a
    let b ← hexValue? b
    let c ← hexValue? c
    let d ← hexValue? d
    pure (((a * 16 + b) * 16 + c) * 16 + d)
  | _ => none

def simpleEscape? (c : Char) : Option Char :=
  match c with
  | '"' => some '"'
  | '\\' => some '\\'
  | '/' => some '/'
  | 'b' => some '\x08'
  | 'f' => some '\x0c'
  | 'n' => some '\n'
  | 'r' => some '\r'
  | 't' => some '\t'
  | _ => none

/-- The character of one escaped unit. Half of a pair stands for no character. -/
def ofUnit (n : Nat) : Char :=
  if 0xD800 ≤ n && n < 0xE000 then '\uFFFD' else Char.ofNat n

/-- An escape, read after its `\u`. Two escapes that form a pair make one
    character. -/
def readUnit (c : Cursor) : Except Stop (Char × Cursor) :=
  let failed : Stop := .expected "Invalid \\uXXXX escape" (c.position - 1)
  if (c.rest.take 5).length < 5 then .error failed
  else
    match unit? (c.rest.take 4) with
    | none => .error failed
    | some high =>
      let after := c.drop 4
      if 0xD800 ≤ high && high < 0xDC00 then
        match after.rest with
        | '\\' :: 'u' :: more =>
          if (more.take 5).length < 5 then .ok (ofUnit high, after)
          else
            match unit? (more.take 4) with
            | none => .error (.expected "Invalid \\uXXXX escape" (after.position + 1))
            | some low =>
              if 0xDC00 ≤ low && low < 0xE000 then
                let n := 0x10000 + (high - 0xD800) * 0x400 + (low - 0xDC00)
                .ok (Char.ofNat n, after.drop 6)
              else .ok (ofUnit high, after)
        | _ => .ok (ofUnit high, after)
      else .ok (ofUnit high, after)

/-- The rest of a text whose opening quote stands at `opened`. `acc` holds the
    characters read so far, backwards. -/
def readText (opened : Nat) : Nat → List Char → Cursor → Except Stop (String × Cursor)
  | 0, _, _ => .error (.expected "Unterminated string starting at" opened)
  | fuel + 1, acc, c =>
    match c.rest with
    | [] => .error (.expected "Unterminated string starting at" opened)
    | '"' :: _ => .ok (String.ofList acc.reverse, c.drop 1)
    | '\\' :: 'u' :: _ => do
      let (ch, next) ← readUnit (c.drop 2)
      readText opened fuel (ch :: acc) next
    | '\\' :: e :: _ =>
      match simpleEscape? e with
      | some ch => readText opened fuel (ch :: acc) (c.drop 2)
      | none => .error (.expected "Invalid \\escape" c.position)
    | '\\' :: [] => .error (.expected "Unterminated string starting at" opened)
    | ch :: _ =>
      if ch.toNat < 32 then .error (.expected "Invalid control character at" c.position)
      else readText opened fuel (ch :: acc) (c.drop 1)

def isAsciiDigit (c : Char) : Bool :=
  '0' ≤ c && c ≤ '9'

/-- The longest numeral at the start of a text: its integer part, and the rest
    of it if there is a fraction or an exponent. -/
def numeral? (cs : List Char) : Option (List Char × List Char) :=
  let (sign, body) := match cs with
    | '-' :: rest => (['-'], rest)
    | rest => ([], rest)
  let whole := match body with
    | '0' :: _ => ['0']
    | rest => rest.takeWhile isAsciiDigit
  if whole.isEmpty then none
  else
    let afterWhole := body.drop whole.length
    let fraction := match afterWhole with
      | '.' :: d :: rest =>
        if isAsciiDigit d then '.' :: d :: rest.takeWhile isAsciiDigit else []
      | _ => []
    let afterFraction := afterWhole.drop fraction.length
    let exponent := match afterFraction with
      | mark :: rest =>
        if mark == 'e' || mark == 'E' then
          let (s, ds) := match rest with
            | '+' :: ds => (['+'], ds)
            | '-' :: ds => (['-'], ds)
            | ds => ([], ds)
          let ds := ds.takeWhile isAsciiDigit
          if ds.isEmpty then [] else mark :: s ++ ds
        else []
      | [] => []
    some (sign ++ whole, fraction ++ exponent)

def readScalar (c : Cursor) : Except Stop (Value × Cursor) :=
  let constants : List (String × Value) :=
    [("null", .null), ("true", .bool true), ("false", .bool false), ("NaN", .nan 0),
      ("Infinity", .float (Decimal.infinity false)), ("-Infinity", .float (Decimal.infinity true))]
  match constants.find? fun k => k.1.toList.isPrefixOf c.rest with
  | some (name, v) => .ok (v, c.drop name.length)
  | none =>
    match numeral? c.rest with
    | none => .error (.expected "Expecting value" c.position)
    | some (whole, []) =>
      match Decimal.readInt? (String.ofList whole) with
      | some i => .ok (.int i, c.drop whole.length)
      | none => .error (.longNumeral (whole.filter Char.isDigit).length)
    | some (whole, more) =>
      let x := (Decimal.readFloat? (String.ofList (whole ++ more))).getD Decimal.nan
      .ok (.float x, c.drop (whole.length + more.length))

/-- Lists and objects may stand in one another this often. -/
def depthLimit : Nat := 985

mutual

/-- The value at a place. `depth` counts the lists and objects around it. -/
def readValue (depth : Nat) : Nat → Cursor → Except Stop (Value × Cursor)
  | 0, c => .error (.expected "Expecting value" c.position)
  | fuel + 1, c =>
    match c.rest with
    | '"' :: _ => do
      let (s, next) ← readText c.position fuel [] (c.drop 1)
      pure (.str s, next)
    | '[' :: _ =>
      let inside := (c.drop 1).skipGap
      if depth ≥ depthLimit then .error (.tooDeep "array")
      else
        match inside.rest with
        | ']' :: _ => .ok (.list [], inside.drop 1)
        | _ => readItems (depth + 1) fuel [] inside
    | '\x7b' :: _ =>
      let inside := (c.drop 1).skipGap
      if depth ≥ depthLimit then .error (.tooDeep "object")
      else
        match inside.rest with
        | '\x7d' :: _ => .ok (.obj [], inside.drop 1)
        | _ => readFields (depth + 1) fuel [] inside
    | _ => readScalar c

def readItems (depth : Nat) : Nat → List Value → Cursor → Except Stop (Value × Cursor)
  | 0, _, c => .error (.expected "Expecting value" c.position)
  | fuel + 1, acc, c => do
    let (v, after) ← readValue depth fuel c
    let next := after.skipGap
    match next.rest with
    | ']' :: _ => pure (.list (v :: acc).reverse, next.drop 1)
    | ',' :: _ => readItems depth fuel (v :: acc) (next.drop 1).skipGap
    | _ => throw (.expected "Expecting ',' delimiter" next.position)

def readFields (depth : Nat) : Nat → Fields Value → Cursor → Except Stop (Value × Cursor)
  | 0, _, c => .error (.expected "Expecting value" c.position)
  | fuel + 1, acc, c =>
    match c.rest with
    | '"' :: _ => do
      let (name, afterName) ← readText c.position fuel [] (c.drop 1)
      let colon := afterName.skipGap
      match colon.rest with
      | ':' :: _ =>
        let (v, after) ← readValue depth fuel (colon.drop 1).skipGap
        let acc := Fields.put acc name v
        let next := after.skipGap
        match next.rest with
        | '\x7d' :: _ => pure (.obj acc, next.drop 1)
        | ',' :: _ => readFields depth fuel acc (next.drop 1).skipGap
        | _ => throw (.expected "Expecting ',' delimiter" next.position)
      | _ => throw (.expected "Expecting ':' delimiter" colon.position)
    | _ => .error (.expected "Expecting property name enclosed in double quotes" c.position)

end

inductive Failure where
  | malformed (p : Problem)
  | longNumeral (digits : Nat)
  /-- Lists and objects stand in one another too often; what the innermost is. -/
  | tooDeep (what : String)

def problemAt (text : List Char) (reason : String) (position : Nat) : Problem :=
  let before := text.take position
  let lastLine := before.reverse.takeWhile (· != '\n')
  ⟨reason, position, before.count '\n' + 1, lastLine.length + 1⟩

def read (s : String) : Except Failure Value :=
  let cs := s.toList
  let failed (stop : Stop) : Failure :=
    match stop with
    | .expected reason position => .malformed (problemAt cs reason position)
    | .longNumeral n => .longNumeral n
    | .tooDeep what => .tooDeep what
  if cs.head? == some '\uFEFF' then
    .error (failed (.expected "Unexpected UTF-8 BOM (decode using utf-8-sig)" 0))
  else
    -- a bracket takes two calls and one character
    match readValue 0 (2 * cs.length + 2) (Cursor.skipGap ⟨0, cs⟩) with
    | .error stop => .error (failed stop)
    | .ok (v, next) =>
      let after := next.skipGap
      if after.rest.isEmpty then .ok v
      else .error (failed (.expected "Extra data" after.position))

end Loom.Json
