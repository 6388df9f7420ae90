import Loom.Files
import Loom.Value.Equal

/-!
# Golden Receipts

In the name of a file a star stands for any text, a question mark for any character, and
characters in brackets for one of them, or for any other if an exclamation mark comes first.
Two stars alone stand for any folders on the way.
-/

namespace Loom.Golden

open Loom.Text

def isWild (name : String) : Bool :=
  name.toList.any fun c => c == '*' || c == '?' || c == '['

def inSet (c : Char) : List Char → Bool
  | a :: '-' :: b :: rest => (a ≤ c && c ≤ b) || inSet c rest
  | a :: rest => a == c || inSet c rest
  | [] => false

/-- The characters between brackets and what follows, if the brackets close. A
    closing bracket that comes first is one of the characters. -/
def splitSet? (cs : List Char) : Option (Bool × List Char × List Char) :=
  let (negated, cs) := match cs with
    | '!' :: rest => (true, rest)
    | cs => (false, cs)
  let (first, cs) := match cs with
    | ']' :: rest => ([']'], rest)
    | cs => ([], cs)
  if cs.contains ']' then
    some (negated, first ++ cs.takeWhile (· != ']'), (cs.dropWhile (· != ']')).drop 1)
  else none

/-- Whether characters fit characters with wildcards. `fuel` bounds the steps. -/
def fitsFrom : Nat → List Char → List Char → Bool
  | 0, _, _ => false
  | _ + 1, [], cs => cs.isEmpty
  | fuel + 1, '*' :: ps, cs =>
    fitsFrom fuel ps cs || match cs with
      | [] => false
      | _ :: rest => fitsFrom fuel ('*' :: ps) rest
  | fuel + 1, '?' :: ps, cs =>
    match cs with
    | [] => false
    | _ :: rest => fitsFrom fuel ps rest
  | fuel + 1, '[' :: ps, cs =>
    match cs with
    | [] => false
    | c :: rest =>
      match splitSet? ps with
      | some (negated, set, after) => (inSet c set != negated) && fitsFrom fuel after rest
      | none => c == '[' && fitsFrom fuel ps rest
  | fuel + 1, p :: ps, cs =>
    match cs with
    | [] => false
    | c :: rest => p == c && fitsFrom fuel ps rest

def fitsName (pattern name : String) : Bool :=
  fitsFrom (pattern.length + name.length + 1) pattern.toList name.toList

/-- Stands for any folders on the way, none included. -/
def anyFolders : String := "**"

def step (fs : Files) (folders : List String) (part : String) : List String :=
  folders.flatMap fun folder =>
    if part == anyFolders then
      folder :: (fs.foldersBelow ((fs.real folder).getD folder)).map (Path.joined folder)
    else if isWild part then
      ((fs.names (Path.normal folder)).filter (fitsName part)).map (Path.joined folder)
    else
      let path := Path.joined folder part
      if fs.exists? path then [path] else []

/-- The first path in a folder that fits, if there is one. Two stars may only stand
    alone. -/
def findFile (fs : Files) (folder pattern : String) : Except Error (Option String) :=
  let parts := (splitOn pattern "/").filter fun p => p != "" && p != "."
  if parts.any fun p => p != anyFolders && contains p anyFolders then .error .badPattern
  else .ok (parts.foldl (step fs) (if fs.isFolder folder then [folder] else [])).head?

/-!
### The First Difference of Two Documents

A receipt is compared with a stored one, and the place of the first difference is
told: names joined by points, positions in brackets. Fields are visited in the
order of their names. Values of different sorts differ, even where they count as
equal otherwise.
-/

def fieldPlace (place name : String) : String :=
  if place.isEmpty then name else place ++ "." ++ name

def itemPlace (place : String) (index : Nat) : String :=
  place ++ "[" ++ Decimal.showInt index ++ "]"

def placeText (place : String) : String :=
  if place.isEmpty then "<root>" else place

inductive Finding where
  | absent (place : String)
  | compared (place : Option String)

/-- The place to tell, if a field differs. An empty place inside a field is passed
    over. -/
def Finding.place? : Finding → Option String
  | absent place => some place
  | compared (some place) => if place.isEmpty then none else some place
  | compared none => none

def firstOf (findings : List (String × Finding)) : Option String :=
  (findings.mergeSort fun a b => decide (a.1 ≤ b.1)).findSome? fun f => f.2.place?

def absentFields (place : String) (fs gs : List (String × Value)) : List (String × Finding) :=
  (gs.filter fun g => !Fields.has fs g.1).map fun g => (g.1, .absent (fieldPlace place g.1))

mutual

def differenceAt (place : String) : Value → Value → Option String
  | .obj fs, w =>
    match w with
    | .obj gs => firstOf (fieldFindings place gs fs ++ absentFields place fs gs)
    | _ => some (placeText place)
  | .list xs, w =>
    match w with
    | .list ys =>
      if xs.length == ys.length then itemDifference place 0 xs ys else some (place ++ ".length")
    | _ => some (placeText place)
  | v, w => if v.kind == w.kind && v.sameScalar w then none else some (placeText place)

def itemDifference (place : String) (index : Nat) : List Value → List Value → Option String
  | v :: vs, w :: ws =>
    match differenceAt (itemPlace place index) v w with
    | some found => some found
    | none => itemDifference place (index + 1) vs ws
  | _, _ => none

def fieldFindings (place : String) (gs : List (String × Value)) :
    List (String × Value) → List (String × Finding)
  | [] => []
  | (k, v) :: rest =>
    (k, match Fields.get? gs k with
      | none => .absent (fieldPlace place k)
      | some w => .compared (differenceAt (fieldPlace place k) v w)) ::
      fieldFindings place gs rest

end

def difference? (a b : Value) : Option String :=
  differenceAt "" a b

end Loom.Golden
