import Loom.Decimal.Numeral
import Loom.Expr.Basic
import Loom.Text.CharName
import Loom.Text.Letter
import Loom.Text.Quoted
import Loom.Text.Utf8

/-!
# Escapes in Quoted Text

The text between the quotes of an expression is decoded from its bytes: an
escape stands for the character that it denotes by a letter, a number or its name,
and every other byte for the character of that number. Text above ASCII therefore
comes out as one character per byte. A backslash before a character that names no
escape stays.
-/

namespace Loom.Expr

/-- Which escape is broken, and the bytes it covers. -/
structure EscapeProblem where
  reason : String
  first : Nat
  stop : Nat

def hexByte? (b : UInt8) : Option Nat :=
  let n := b.toNat
  if 48 ≤ n && n ≤ 57 then some (n - 48)
  else if 97 ≤ n && n ≤ 102 then some (n - 87)
  else if 65 ≤ n && n ≤ 70 then some (n - 55)
  else none

def hexDigits (n : Nat) (bs : List UInt8) : Nat × Nat :=
  let ds := (bs.take n).map hexByte?
  let found := ds.takeWhile Option.isSome
  (found.foldl (fun acc d => acc * 16 + d.getD 0) 0, found.length)

def octalDigits (bs : List UInt8) : Nat × Nat :=
  let found := (bs.take 3).takeWhile fun b => 48 ≤ b.toNat && b.toNat ≤ 55
  (found.foldl (fun acc b => acc * 8 + (b.toNat - 48)) 0, found.length)

def letterEscape? (b : UInt8) : Option (List Char) :=
  match Char.ofNat b.toNat with
  | '\n' => some []
  | '\\' => some ['\\']
  | '\'' => some ['\'']
  | '"' => some ['"']
  | 'b' => some ['\x08']
  | 'f' => some ['\x0c']
  | 't' => some ['\t']
  | 'n' => some ['\n']
  | 'r' => some ['\r']
  | 'v' => some ['\x0b']
  | 'a' => some ['\x07']
  | _ => none

/-- What an escape stands for and how many bytes after the backslash it takes,
    for the bytes after the backslash at `position`. -/
def escapeAt (position : Nat) : List UInt8 → Except EscapeProblem (List Char × Nat)
  | [] => .error ⟨"\\ at end of string", position, position + 1⟩
  | b :: bs =>
    let coded (width : Nat) (reason : String) : Except EscapeProblem (List Char × Nat) :=
      let (code, count) := hexDigits width bs
      if count < width then .error ⟨reason, position, position + 2 + count⟩
      else if code > 0x10FFFF then
        .error ⟨"illegal Unicode character", position, position + 2 + count⟩
      else .ok ([Char.ofNat code], width + 1)
    match letterEscape? b with
    | some cs => .ok (cs, 1)
    | none =>
      match Char.ofNat b.toNat with
      | 'x' => coded 2 "truncated \\xXX escape"
      | 'u' => coded 4 "truncated \\uXXXX escape"
      | 'U' => coded 8 "truncated \\UXXXXXXXX escape"
      | 'N' =>
        match bs with
        | 0x7B :: rest =>
          let name := rest.takeWhile (· != 0x7D)
          if name.length == rest.length then
            .error ⟨"malformed \\N character escape", position, position + 3 + name.length⟩
          else if name.isEmpty then
            .error ⟨"malformed \\N character escape", position, position + 3⟩
          else
            match Text.charNamed? (String.ofList (name.map fun b => Char.ofNat b.toNat)) with
            | some c => .ok ([c], name.length + 3)
            | none =>
              .error ⟨"unknown Unicode character name", position, position + 4 + name.length⟩
        | _ => .error ⟨"malformed \\N character escape", position, position + 2⟩
      | _ =>
        let (code, count) := octalDigits (b :: bs)
        if count > 0 then .ok ([Char.ofNat code], count)
        else .ok (['\\', Char.ofNat b.toNat], 1)

def unescapeFrom (position skip : Nat) : List UInt8 → Except EscapeProblem (List Char)
  | [] => .ok []
  | b :: bs =>
    match skip with
    | k + 1 => unescapeFrom (position + 1) k bs
    | 0 =>
      if b == 0x5C then do
        let (cs, used) ← escapeAt position bs
        let rest ← unescapeFrom (position + 1) used bs
        pure (cs ++ rest)
      else do
        let rest ← unescapeFrom (position + 1) 0 bs
        pure (Char.ofNat b.toNat :: rest)

def unescape (s : List Char) : Except EscapeProblem String :=
  (unescapeFrom 0 0 (s.flatMap Text.utf8Char)).map String.ofList

open Loom.Text

/-!
### Tokens of Expressions

Expression text cut into numbers, quoted texts, signs, keywords and names.
Blanks may stand before a token and only there: blanks at the end of a text
are an error, as is any character that starts no token.

A keyword is one in any case, but only as a whole word: directly after a digit,
where no word starts, the same letters are a name.
-/

inductive Sign where
  | eq | ne | le | ge | dots | opening | closing | add | sub | mul | div | lt | gt
  deriving DecidableEq

/-- Keywords. `false` may be spelled with a long s; that spelling is recognised
    as a keyword and has no meaning. -/
inductive Keyword where
  | and | or | not | true | false
  | longS (spelling : String)
  deriving DecidableEq

inductive Token where
  | number (n : Number)
  | text (s : String)
  | sign (s : Sign)
  | keyword (k : Keyword)
  | name (s : String)
  | done

def Sign.symbol : Sign → String
  | eq => "=="
  | ne => "!="
  | le => "<="
  | ge => ">="
  | dots => ".."
  | opening => "("
  | closing => ")"
  | add => "+"
  | sub => "-"
  | mul => "*"
  | div => "/"
  | lt => "<"
  | gt => ">"

def Keyword.spelling : Keyword → String
  | and => "and"
  | or => "or"
  | not => "not"
  | true => "true"
  | false => "false"
  | longS s => s

/-- A token as a pair of its class and its content. -/
def Token.show (t : Token) : String :=
  let pair (cls content : String) := "('" ++ cls ++ "', " ++ content ++ ")"
  match t with
  | number (.int n) => pair "number" (Decimal.showInt n)
  | number (.float x) => pair "number" (Decimal.Layout.plain.show x)
  | text s => pair "string" (quoted s)
  | sign s => pair "op" (quoted s.symbol)
  | keyword k => pair "kw" (quoted k.spelling)
  | name s => pair "ident" (quoted s)
  | done => pair "eof" "None"

inductive Problem where
  /-- No token starts at a position; the text there is shown. -/
  | badToken (position : Nat) (near : String)
  | longNumeral (digits : Nat)
  | badEscape (p : EscapeProblem)
  /-- A sign has to stand where another token does. -/
  | signExpected (found : Token)
  | unexpected (found : Token)
  | trailing
  | tooDeep

def isNameStart (c : Char) : Bool :=
  isLetterLike c || c == '_'

def isNameChar (c : Char) : Bool :=
  isLetterLike c || ('0' ≤ c && c ≤ '9') || c == '_'

def quotedBody? : List Char → Option (List Char × List Char)
  | [] => none
  | '"' :: rest => some ([], rest)
  | '\\' :: c :: rest =>
    if c == '\n' then none
    else (quotedBody? rest).map fun (body, after) => ('\\' :: c :: body, after)
  | '\\' :: [] => none
  | c :: rest => (quotedBody? rest).map fun (body, after) => (c :: body, after)

def sign? : List Char → Option (Sign × Nat)
  | '=' :: '=' :: _ => some (.eq, 2)
  | '!' :: '=' :: _ => some (.ne, 2)
  | '<' :: '=' :: _ => some (.le, 2)
  | '>' :: '=' :: _ => some (.ge, 2)
  | '.' :: '.' :: _ => some (.dots, 2)
  | '(' :: _ => some (.opening, 1)
  | ')' :: _ => some (.closing, 1)
  | '+' :: _ => some (.add, 1)
  | '-' :: _ => some (.sub, 1)
  | '*' :: _ => some (.mul, 1)
  | '/' :: _ => some (.div, 1)
  | '<' :: _ => some (.lt, 1)
  | '>' :: _ => some (.gt, 1)
  | _ => none

def keywordOf? (s : List Char) : Option Keyword :=
  let isKeyword (k : String) : Bool :=
    k.length == s.length && (k.toList.zip s).all fun (a, c) => sameLetter a c
  if isKeyword "and" then some .and
  else if isKeyword "or" then some .or
  else if isKeyword "not" then some .not
  else if isKeyword "true" then some .true
  else if isKeyword "false" then
    if s.contains '\u017F' then some (.longS (lower (String.ofList s))) else some .false
  else none

/-- The token at the start of a text without leading blanks and its length.
    `before` is the character before the text. `none` if no token starts there. -/
def tokenAt (before : Option Char) (cs : List Char) : Except Problem (Option (Token × Nat)) :=
  match cs with
  | [] => .ok none
  | c :: rest =>
    if isDigit c then
      let whole := cs.takeWhile isDigit
      let value (ds : List Char) : List Nat := ds.filterMap digitValue?
      let integer : Except Problem (Option (Token × Nat)) :=
        if whole.length > Decimal.digitLimit then .error (.longNumeral whole.length)
        else .ok (some (.number (.int (Decimal.ofDigits (value whole))), whole.length))
      match cs.drop whole.length with
      | '.' :: more =>
        let fraction := more.takeWhile isDigit
        if fraction.isEmpty then integer
        else
          let x := Decimal.ofDecimal false (value (whole ++ fraction)) (-(fraction.length : Int))
          .ok (some (.number (.float x), whole.length + 1 + fraction.length))
      | _ => integer
    else if c == '"' then
      match quotedBody? rest with
      | none => .ok none
      | some (body, _) =>
        match unescape body with
        | .ok s => .ok (some (.text s, body.length + 2))
        | .error p => .error (.badEscape p)
    else
      match sign? cs with
      | some (s, n) => .ok (some (.sign s, n))
      | none =>
        if isNameStart c then
          let spelling := cs.takeWhile isNameChar
          let next := (cs.drop spelling.length).head?
          -- a keyword has to begin and end at the edge of a word
          let apart := !before.any isWord && !next.any isWord
          match keywordOf? spelling with
          | some k => .ok (some (if apart then .keyword k else .name (String.ofList spelling),
              spelling.length))
          | none => .ok (some (.name (String.ofList spelling), spelling.length))
        else .ok none

/-- The tokens from a position on. `before` is the character before it. The fuel
    bounds the tokens; the length of the text suffices. -/
def tokensFrom : Nat → Nat → Option Char → List Char → Except Problem (List Token)
  | _, _, _, [] => .ok []
  | 0, _, _, _ => .ok []
  | fuel + 1, position, before, cs => do
    let gap := cs.takeWhile isBlank
    let body := cs.drop gap.length
    let before := (gap.getLast?).or before
    match ← tokenAt before body with
    | none => throw (.badToken position (String.ofList (cs.take 10)))
    | some (t, n) =>
      let used := body.take n
      let rest ← tokensFrom fuel (position + gap.length + n) used.getLast? (body.drop n)
      pure (t :: rest)

def tokens (s : String) : Except Problem (List Token) :=
  tokensFrom s.length 0 none s.toList

end Loom.Expr
