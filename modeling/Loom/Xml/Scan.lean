import Loom.Text.Ranges

/-!
# Names in Markup

Which characters a name may start with and which may follow. The tables are those
of the fourth edition of the standard and end with the basic plane.
-/

namespace Loom.Xml

def letterRanges : Text.Ranges :=
  .ofText "h!9$A$]%-%*$W$f%-F&#(@]f;6)h(!$$$!$6$N$)&!$!$!$!$41.$f#$.$F2W%#%#&>%*%#[H%!+Hf-=)$R<*,Jf
)%&$1$%$!3#mBW&!>,G*%#%8$)$!&%F#$$2#7((#%8$)$#$#$#C%$!7$4)$!$$$8$)$#$&&!F!H*%#%8$)$#%%&!B#$$G(&$$%&#
$!$#&#&$&*$$f/*$$$9$,$&J#G*$$$9$,$&H!$#G*$$$9$2J#gCP$!$#0(a#$!%#$!%!*%$)$$$!$!%#$#$!$#-!%&fa*$CiZH.I
-!$#$$$!$#$&M!$!$!/!$!$!&#&!)$$!$!$!$!&#&#$!L!-!%!%#+#$!$)L!(!,!ge*g>(f<*8%(%H%(%*$!$!$!$A%W$)$!&$$)
&%%((/)$$)iM!&#%!f5$go(!=+;f60f<.Jix7rsHgf>lkF"

/-- Digits, marks and extenders above ASCII. -/
def followerRanges : Text.Ranges :=
  .ofText "gZ!m<#Rf(>#I!ha%i.3$9$$$!$#$!fa!.*1,*!fI1%#$%%,m+$]!$2&%1#%,5$]!$)%#%$-!.#%,6!^!$&(#%$<.
3$]!$*$$$$<,5$]!$(&#%$,#2,6#_&&$$%-!3+5$_)$$$%+#3,6#_)$$$%+#3,6#_(%$$%-!2,h$!%)/+$,f;!%($#-!$(%,d#*,
/!$!$!(#U6$((($!$7&)$!gy:/(!gqG!H($&fG#%#fA$"

def isNameStart (c : Char) : Bool :=
  if c.toNat < 128 then c.isAlpha || c == '_' else letterRanges.holds c

def isNameChar (c : Char) : Bool :=
  if c.toNat < 128 then c.isAlphanum || c == '_' || c == '-' || c == '.'
  else letterRanges.holds c || followerRanges.holds c

def takeName (cs : List Char) : Option (List Char × List Char) :=
  match cs with
  | [] => none
  | c :: rest =>
    if isNameStart c then some (c :: rest.takeWhile isNameChar, rest.dropWhile isNameChar) else none

/-!
### Scanning Markup

The small things that documents are made of, read from the start of a text: blanks,
names, quoted texts, references, comments and instructions. What is not as it should
be gives `none`, for no part of a malformed document counts.
-/

def isAllowed (n : Nat) : Bool :=
  n == 9 || n == 10 || n == 13 || (32 ≤ n && n < 0xD800) || (0xE000 ≤ n && n < 0xFFFE) ||
    (0x10000 ≤ n && n < 0x110000)

def isSpace (c : Char) : Bool :=
  c == ' ' || c == '\t' || c == '\n' || c == '\r'

def skipSpace (cs : List Char) : List Char :=
  cs.dropWhile isSpace

def plainLines : List Char → List Char
  | '\r' :: '\n' :: rest => '\n' :: plainLines rest
  | '\r' :: rest => '\n' :: plainLines rest
  | c :: rest => c :: plainLines rest
  | [] => []

def after? (literal : String) (cs : List Char) : Option (List Char) :=
  let l := literal.toList
  if l.isPrefixOf cs then some (cs.drop l.length) else none

def upTo? (literal : String) : List Char → Option (List Char × List Char)
  | [] => if literal.isEmpty then some ([], []) else none
  | c :: rest =>
    match after? literal (c :: rest) with
    | some more => some ([], more)
    | none => (upTo? literal rest).map fun (before, more) => (c :: before, more)

/-- A name of one part or of two around a colon. -/
def takeQualified (cs : List Char) : Option (List Char × List Char) := do
  let (first, rest) ← takeName cs
  match rest with
  | ':' :: more =>
    let (second, rest') ← takeName more
    if rest'.head? == some ':' then none else some (first ++ ':' :: second, rest')
  | _ => some (first, rest)

def quotedText? (cs : List Char) : Option (List Char × List Char) :=
  match cs with
  | '"' :: rest => upTo? "\"" rest
  | '\'' :: rest => upTo? "'" rest
  | _ => none

def digitsValue? (base : Nat) (digit? : Char → Option Nat) (ds : List Char) : Option Nat :=
  if ds.isEmpty then none
  else ds.foldl (fun acc c => do pure ((← acc) * base + (← digit? c))) (some 0)

def decimal? (c : Char) : Option Nat :=
  if c.isDigit then some (c.toNat - '0'.toNat) else none

def hexadecimal? (c : Char) : Option Nat :=
  if c.isDigit then some (c.toNat - '0'.toNat)
  else if 'a' ≤ c && c ≤ 'f' then some (c.toNat - 'a'.toNat + 10)
  else if 'A' ≤ c && c ≤ 'F' then some (c.toNat - 'A'.toNat + 10)
  else none

/-- What a reference names: a character by its number, or an entity. -/
inductive Reference where
  | char (c : Char)
  | entity (name : String)

def reference? (cs : List Char) : Option (Reference × List Char) :=
  match cs with
  | '#' :: rest =>
    let (digits, more) := (rest.takeWhile (· != ';'), rest.dropWhile (· != ';'))
    let value := match digits with
      | 'x' :: ds => digitsValue? 16 hexadecimal? ds
      | ds => digitsValue? 10 decimal? ds
    match value, more with
    | some n, ';' :: more => if isAllowed n then some (.char (Char.ofNat n), more) else none
    | _, _ => none
  | _ =>
    match takeName cs with
    | some (name, ';' :: more) => some (.entity (String.ofList name), more)
    | _ => none

def predefined? (name : String) : Option Char :=
  match name with
  | "amp" => some '&'
  | "lt" => some '<'
  | "gt" => some '>'
  | "quot" => some '"'
  | "apos" => some '\''
  | _ => none

def comment? (cs : List Char) : Option (List Char) := do
  let (_, rest) ← upTo? "--" cs
  after? ">" rest

/-- What follows `<?`: an instruction whose target is not the reserved one. -/
def instruction? (cs : List Char) : Option (List Char) := do
  let (target, rest) ← takeName cs
  if target.map Char.toLower == ['x', 'm', 'l'] then none
  else
    match rest with
    | '?' :: '>' :: more => some more
    | c :: more => if isSpace c then (upTo? "?>" more).map Prod.snd else none
    | [] => none

def skipAsides : Nat → List Char → Option (List Char)
  | 0, _ => none
  | fuel + 1, cs =>
    match skipSpace cs with
    | '<' :: '!' :: '-' :: '-' :: rest => do skipAsides fuel (← comment? rest)
    | '<' :: '?' :: rest => do skipAsides fuel (← instruction? rest)
    | rest => some rest

end Loom.Xml
