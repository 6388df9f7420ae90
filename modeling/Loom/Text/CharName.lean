import Loom.Text.Names
import Loom.Text.Slice

/-!
# Names of Korean Syllables

A Korean syllable is written as one character, and its name spells its parts: a
lead consonant, a vowel and a final consonant, where the consonants may be missing.
The characters stand in the order of their parts, so the name gives the place.
-/

namespace Loom.Text.Hangul

def leads : List String :=
  splitOn "G GG N D DD R M B BB S SS  J JJ C K T P H" " "

def vowels : List String :=
  splitOn "A AE YA YAE EO E YEO YE O WA WAE OE YO U WEO WE WI YU EU YI I" " "

def tails : List String :=
  splitOn " G GG GS N NJ NH D L LG LM LB LS LT LP LH M B BS S SS NG J C K T P H" " "

def firstSyllable : Nat := 0xAC00

def compose (lead vowel tail : Nat) : Char :=
  Char.ofNat (firstSyllable + (lead * vowels.length + vowel) * tails.length + tail)

def syllable? (spelling : List Char) : Option Char :=
  leads.zipIdx.findSome? fun (lead, l) => do
    let rest ← dropStart? lead.toList spelling
    vowels.zipIdx.findSome? fun (vowel, v) => do
      let rest ← dropStart? vowel.toList rest
      (tails.idxOf? (String.ofList rest)).map (compose l v)

end Loom.Text.Hangul

namespace Loom.Text

/-!
### Names of Characters

Every character has a name in capital letters. Most names are listed in a table;
Korean syllables are spelled, and ideographs are numbered by their code points. The
letters of a listed name may be small, those of a syllable or of a unified ideograph
may not.

The table is made of runs of characters that follow one another: how many code points are left
out before the first, and the names of all. A small letter starts each name and tells how
many words it shares with the name before it, from `a` for none; only the rest is written. A
name whose last words are those of the name before it leaves them out too and has an `@` in
their place. After `#` stands how many more names count on from a name that ends with a
number.
-/

def capitalHex? (c : Char) : Option Nat :=
  if '0' ≤ c && c ≤ '9' then some (c.toNat - '0'.toNat)
  else if 'A' ≤ c && c ≤ 'F' then some (c.toNat - 'A'.toNat + 10)
  else none

def codePoint? (digits : List Char) : Option Nat :=
  (digits.mapM capitalHex?).map fun ds => ds.foldl (fun n d => n * 16 + d) 0

def writtenCode? (digits : List Char) : Option Nat :=
  if digits.length == 4 || digits.length == 5 then codePoint? digits else none

def unifiedIdeographs : Ranges :=
  [(0x3400, 0x4DBF), (0x4E00, 0x9FFF), (0x20000, 0x2A6DF), (0x2A700, 0x2B738),
    (0x2B740, 0x2B81D), (0x2B820, 0x2CEA1), (0x2CEB0, 0x2EBE0), (0x30000, 0x3134A)]

def numberedNames : List (String × Ranges) :=
  [("CJK COMPATIBILITY IDEOGRAPH-", [(0xF900, 0xFA6D), (0xFA70, 0xFAD9), (0x2F800, 0x2FA1D)]),
    ("KHITAN SMALL SCRIPT CHARACTER-", [(0x18B00, 0x18CD5)]),
    ("NUSHU CHARACTER-", [(0x1B170, 0x1B2FB)])]

def charWithin? (ranges : Ranges) (code : Nat) : Option Char :=
  some (Char.ofNat code) |>.filter ranges.holds

/-- The character that is named by its code point, which has no idle zeros. -/
def numbered? (name : List Char) : Option Char :=
  numberedNames.findSome? fun (start, ranges) => do
    let digits ← dropStart? start.toList name
    if digits.head? == some '0' then none
    else (writtenCode? digits).bind (charWithin? ranges)

/-- The names of a run as they are written: how many words each shares with the one
    before it, and the rest. -/
def runEntries (run : List Char) : List (Nat × String) :=
  (run.foldr (fun c (rest, found) =>
    if 'a' ≤ c && c ≤ 'j' then ([], (c.toNat - 'a'.toNat, String.ofList rest) :: found)
    else (c :: rest, found)) ([], [])).2

def countUp : List Char → List Char
  | [] => ['1']
  | c :: cs =>
    if c == '9' then '0' :: countUp cs
    else if c.isDigit then Char.ofNat (c.toNat + 1) :: cs
    else '1' :: c :: cs

def countedNames (name : String) : Nat → List String
  | 0 => []
  | n + 1 =>
    let next := String.ofList (countUp name.toList.reverse).reverse
    next :: countedNames next n

/-- The words of a name that is written as `text` and shares some with the one before it. -/
def wholeName (words : List String) (shared : Nat) (text : String) : List String :=
  let own := splitOn (replace text "@" "") " "
  words.take shared ++ own ++ if endsWith text "@" then words.drop (shared + own.length) else []

def wholeNames (words : List String) : List (Nat × String) → List String
  | [] => []
  | (shared, rest) :: more =>
    let (text, count) := partition rest "#"
    let name := join " " (wholeName words shared text)
    let counted := countedNames name ((count.bind String.toNat?).getD 0)
    name :: counted ++ wholeNames (splitOn (counted.getLastD name) " ") more

def runNames (run : String) : List String :=
  wholeNames [] (runEntries run.toList)

def runStart (next : Nat) (gap : String) : Nat :=
  match gap.toList with
  | '-' :: digits => next - (codePoint? digits).getD 0
  | digits => next + (codePoint? digits).getD 0

def findInRuns? (name : String) (next : Nat) : List String → Option Char
  | gap :: run :: rest =>
    let first := runStart next gap
    let names := runNames run
    match names.idxOf? name with
    | some place => some (Char.ofNat (first + place))
    | none => findInRuns? name (first + names.length) rest
  | _ => none

def charNamed? (name : String) : Option Char :=
  match dropStart? "HANGUL SYLLABLE ".toList name.toList with
  | some spelling => Hangul.syllable? spelling
  | none =>
    match dropStart? "CJK UNIFIED IDEOGRAPH-".toList name.toList with
    | some digits => (writtenCode? digits).bind (charWithin? unifiedIdeographs)
    | none =>
      let capital := name.toList.map Char.toUpper
      (numbered? capital).or
        (findInRuns? (String.ofList capital) 0 (splitOn nameTable.get ";"))

end Loom.Text
