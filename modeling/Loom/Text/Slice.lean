import Loom.Text.Ranges

/-!
# Slices of Text

Cutting text: at blanks, at separators, at line ends. Everything is defined on
lists of characters, where the pieces are sublists, and lifted to `String`.

A line ends at any of the vertical separators, not at a line feed only. A
carriage return followed by a line feed ends one line.
-/

namespace Loom.Text

/-- The list without the longest final run that satisfies `p`. -/
def dropEndWhile (p : Char → Bool) (s : List Char) : List Char :=
  (s.reverse.dropWhile p).reverse

def stripChars (p : Char → Bool) (s : List Char) : List Char :=
  dropEndWhile p (s.dropWhile p)

def stripWhere (p : Char → Bool) (s : String) : String :=
  String.ofList (stripChars p s.toList)

def strip (s : String) : String :=
  stripWhere isBlank s

def stripEnd (s : String) : String :=
  String.ofList (dropEndWhile isBlank s.toList)

/-- The rest of a text after a given beginning, `none` if it begins otherwise. -/
def dropStart? : (start s : List Char) → Option (List Char)
  | [], s => some s
  | _ :: _, [] => none
  | a :: as, c :: cs => if a == c then dropStart? as cs else none

def startsWith (s start : String) : Bool :=
  (dropStart? start.toList s.toList).isSome

def endsWith (s last : String) : Bool :=
  (dropStart? last.toList.reverse s.toList.reverse).isSome

/-- Cut at each occurrence of `sep`, leftmost first. `piece` holds the current
    piece backwards, `skip` counts the characters of a separator still to pass. -/
def splitFrom (sep : List Char) (piece : List Char) (skip : Nat) : List Char → List (List Char)
  | [] => [piece.reverse]
  | c :: cs =>
    match skip with
    | k + 1 => splitFrom sep piece k cs
    | 0 =>
      match sep, dropStart? sep (c :: cs) with
      | _ :: rest, some _ => piece.reverse :: splitFrom sep [] rest.length cs
      | _, _ => splitFrom sep (c :: piece) 0 cs

def splitOn (s sep : String) : List String :=
  (splitFrom sep.toList [] 0 s.toList).map String.ofList

def join (sep : String) : List String → String
  | [] => ""
  | [s] => s
  | s :: rest => s ++ sep ++ join sep rest

def replace (s old new : String) : String :=
  join new (splitOn s old)

def contains (s part : String) : Bool :=
  part.isEmpty || (splitOn s part).length > 1

/-- The text before and after the first occurrence of `sep`; the whole text and
    `none` if there is none. -/
def partition (s sep : String) : String × Option String :=
  match splitOn s sep with
  | [] => (s, none)
  | [_] => (s, none)
  | first :: rest => (first, some (join sep rest))

def fieldsFrom (piece : List Char) : List Char → List (List Char)
  | [] => if piece.isEmpty then [] else [piece.reverse]
  | c :: cs =>
    if isBlank c then
      if piece.isEmpty then fieldsFrom [] cs else piece.reverse :: fieldsFrom [] cs
    else fieldsFrom (c :: piece) cs

def fields (s : String) : List String :=
  (fieldsFrom [] s.toList).map String.ofList

def isLineEnd (c : Char) : Bool :=
  (10 ≤ c.toNat && c.toNat ≤ 13) || (28 ≤ c.toNat && c.toNat ≤ 30) || c == '\x85' ||
    c == '\u2028' || c == '\u2029'

def linesFrom (line : List Char) (started : Bool) : List Char → List (List Char)
  | [] => if started then [line.reverse] else []
  | '\r' :: '\n' :: cs => line.reverse :: linesFrom [] false cs
  | c :: cs =>
    if isLineEnd c then line.reverse :: linesFrom [] false cs
    else linesFrom (c :: line) true cs

def lines (s : String) : List String :=
  (linesFrom [] false s.toList).map String.ofList

/-- Line ends as a text file is read: a carriage return, alone or before a line
    feed, becomes a line feed. -/
def unifyLineEnds : List Char → List Char
  | [] => []
  | '\r' :: '\n' :: cs => '\n' :: unifyLineEnds cs
  | c :: cs => (if c == '\r' then '\n' else c) :: unifyLineEnds cs

def readLines (s : String) : String :=
  String.ofList (unifyLineEnds s.toList)

def takeChars (n : Nat) (s : String) : String :=
  String.ofList (s.toList.take n)

def dropChars (n : Nat) (s : String) : String :=
  String.ofList (s.toList.drop n)

def repeated (s : String) (n : Nat) : String :=
  String.join (List.replicate n s)

end Loom.Text
