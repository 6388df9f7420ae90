import Loom.Digest
import Loom.Text.Pattern
import Loom.Text.Utf8

/-!
# Outlines in Normal Form

Outlines that differ only in spacing and in the spelling of a few words are the
same program. Here an outline is brought to one form, line by line, before its
hash is taken. Sections are set as `Key: Value`; steps of the flow are indented by
what they are, and a loop that stands on one line with its number gets a line for
its header.
-/

namespace Loom.Outline

open Loom.Text Loom.Text.Pattern

def collapse (s : String) : String :=
  (many1 fun c => c == ' ' || c == '\t').replaceAll (fun _ => " ") (strip s)

/-- A capital letter and a title. -/
def sectionLine : Pattern :=
  gap ++ named "letter" (one fun c => 'A' ≤ c && c ≤ 'Z') ++ chr '.' ++ gap ++
    named "rest" (few1 onLine) ++ gap ++ finish

def flowLine : Pattern :=
  gap ++ one isLetterLike ++ chr '.' ++ gap ++ word "flow" ++ gap ++ finish

def bulletLine : Pattern :=
  gap ++ named "number" (many1 isDigit) ++ chr '.' ++ gap ++ named "rest" (few1 onLine) ++ gap ++
    finish

def chooseLine : Pattern := gap ++ word "choose" ++ gap ++ finish

/-- Words, a colon, and nothing more. -/
def headerEnd : Pattern := many1 onLine ++ chr ':' ++ gap ++ finish

def clauseLine : Pattern :=
  oneOf [gap ++ word "when" ++ space ++ headerEnd,
    gap ++ word "else" ++ space ++ word "if" ++ space ++ headerEnd,
    gap ++ word "otherwise" ++ gap ++ chr ':' ++ gap ++ finish]

def rangeLine : Pattern :=
  gap ++ one (fun c => isLetterLike c || c == '_') ++
    many (fun c => isLetterLike c || ('0' ≤ c && c ≤ '9') || c == '_') ++ space ++ word "in" ++
    space ++ headerEnd

def loopLine : Pattern :=
  oneOf [gap ++ word "repeat" ++ edge ++ headerEnd, rangeLine]

def normalSection (line : String) : String :=
  match sectionLine.match? line with
  | none => stripEnd line
  | some m =>
    let rest := collapse (m.group "rest")
    let letter := m.group "letter" ++ ". "
    match partition rest ":" with
    | (key, some value) => letter ++ strip key ++ ": " ++ strip value
    | (_, none) => letter ++ rest

def capitalVerbs : List (String × String) :=
  [("repeat", "Repeat"), ("choose", "Choose"), ("make", "Make"), ("return", "Return")]

def normalStep (text : String) : String :=
  let text := collapse text
  let (head, tail) := partition text " "
  match capitalVerbs.find? fun v => v.1 == lower head with
  | some (_, verb) =>
    match tail with
    | some t => if t.isEmpty then verb else verb ++ " " ++ t
    | none => verb
  | none => text

def normalHeader (line : String) : String :=
  lower (collapse line)

inductive Part where
  /-- Outside the flow. -/
  | outside
  /-- In the flow, not below a header. -/
  | flow
  /-- In the flow, below a header. -/
  | body

def stepIndent : String := "  "

def headerIndent : String := "    "

def bodyIndent : String := "      "

def normalBullet (number rest : String) : List String × Part :=
  let text := collapse rest
  let bullet := stepIndent ++ number ++ ". "
  if startsWith (lower text) "repeat " && endsWith (lower text) ":" then
    let header := strip ((partition text " ").2.getD "")
    ([bullet ++ "Repeat", headerIndent ++ normalHeader header], .body)
  else if rangeLine.fits text then
    ([bullet ++ "Repeat", headerIndent ++ normalHeader text], .body)
  else ([bullet ++ normalStep text], .flow)

def normalFlowLine (part : Part) (line : String) : List String × Part :=
  match bulletLine.match? line with
  | some m => normalBullet (m.group "number") (m.group "rest")
  | none =>
    if chooseLine.fits line then ([headerIndent ++ "Choose"], .body)
    else if clauseLine.fits line || loopLine.fits line then
      ([headerIndent ++ normalHeader line], .body)
    else if line.isEmpty then ([""], part)
    else
      match part with
      | .body => ([bodyIndent ++ collapse line], part)
      | _ => ([stepIndent ++ collapse line], part)

def normalLine (part : Part) (raw : String) : List String × Part :=
  let line := stripEnd raw
  if flowLine.fits line then (["D. Flow"], .flow)
  else if sectionLine.fits line then ([normalSection line], .outside)
  else
    match part with
    | .outside => ([line], .outside)
    | part => normalFlowLine part line

def normalLinesFrom (part : Part) : List String → List String
  | [] => []
  | line :: rest =>
    let (out, next) := normalLine part line
    out ++ normalLinesFrom next rest

def normalLines (text : String) : List String :=
  ((normalLinesFrom .outside (lines text)).reverse.dropWhile String.isEmpty).reverse

def normalOutline (text : String) : String :=
  String.join ((normalLines text).map (· ++ "\n"))

def anyLine (p : Pattern) (lineStart : Bool) : List Char → Bool
  | [] => lineStart && p.fits ""
  | c :: cs => (lineStart && p.fits (String.ofList (c :: cs))) || anyLine p (c == '\n') cs

def hasSections (text : String) : Bool :=
  anyLine (gap ++ one (fun c => 'A' ≤ c && c ≤ 'Z') ++ chr '.' ++ one isBlank) true text.toList

def hashedText (text : String) : String :=
  if hasSections text then normalOutline text else text

def sourceHash (text : String) : String :=
  Digest.sha256 (utf8 (hashedText text))

end Loom.Outline
