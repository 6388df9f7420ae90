import Loom.Text.Letter

/-!
# Text Patterns

The shapes of outline lines, written as patterns. A pattern is matched from the
left, and where it leaves a choice the choices are tried in order: the first
side of `alt` before the second, a greedy run from its longest to its shortest
reach, a short run the other way. The first way in which the whole pattern
fits is the match. That order is what decides which part of a line belongs to
which group, so it is part of the meaning and not of the search.

Matching passes the rest of the work along as a function, so each constructor
has an equation of one line and a proof can follow a pattern piece by piece.
-/

namespace Loom.Text

inductive Pattern where
  | nothing
  | one (accepts : Char → Bool)
  | seq (first second : Pattern)
  | alt (first second : Pattern)
  /-- Characters of a class, as many as possible. -/
  | many (accepts : Char → Bool)
  /-- Characters of a class, as few as possible. -/
  | few (accepts : Char → Bool)
  /-- A pattern any number of times, as often as possible. -/
  | repeated (p : Pattern)
  /-- A pattern whose text is remembered under a name. -/
  | named (name : String) (p : Pattern)
  | start
  /-- The end of the text, or the place before a line feed that ends it. -/
  | finish
  /-- The very end of the text. -/
  | ended
  /-- The place between a word character and another one. -/
  | edge

namespace Pattern

instance : Append Pattern := ⟨seq⟩

instance : OrElse Pattern := ⟨fun p q => alt p (q ())⟩

/-- The texts remembered so far, latest first. -/
abbrev Groups := List (String × List Char)

/-- A place in a text: the character before it, if any, and the text after it. -/
structure Place where
  before : Option Char
  rest : List Char

def Place.atEdge (p : Place) : Bool :=
  (p.before.any isWord) != (p.rest.head?.any isWord)

variable {β : Type}

/-- Try a run of class characters from its longest reach down to none. -/
def runMany (accepts : Char → Bool) (k : Place → Option β) (before : Option Char) :
    List Char → Option β
  | [] => k ⟨before, []⟩
  | c :: cs =>
    if accepts c then
      match runMany accepts k (some c) cs with
      | some r => some r
      | none => k ⟨before, c :: cs⟩
    else k ⟨before, c :: cs⟩

/-- Try a run of class characters from none up to its longest reach. -/
def runFew (accepts : Char → Bool) (k : Place → Option β) (before : Option Char) :
    List Char → Option β
  | [] => k ⟨before, []⟩
  | c :: cs =>
    match k ⟨before, c :: cs⟩ with
    | some r => some r
    | none => if accepts c then runFew accepts k (some c) cs else none

/-- Repeat `p`, each time by at least one character, then go on with `k`. The
    count bounds the repetitions; the length of the text always suffices. -/
def runRepeated (p : Place → Groups → (Place → Groups → Option β) → Option β)
    (k : Place → Groups → Option β) : Nat → Place → Groups → Option β
  | 0, here, gs => k here gs
  | n + 1, here, gs =>
    match p here gs fun next gs' =>
        if next.rest.length < here.rest.length then runRepeated p k n next gs' else none with
    | some r => some r
    | none => k here gs

/-- The first way in which `p` fits at a place and `k` succeeds after it. -/
def run : Pattern → Place → Groups → (Place → Groups → Option β) → Option β
  | nothing, here, gs, k => k here gs
  | one accepts, here, gs, k =>
    match here.rest with
    | [] => none
    | c :: cs => if accepts c then k ⟨some c, cs⟩ gs else none
  | seq p q, here, gs, k => p.run here gs fun next gs' => q.run next gs' k
  | alt p q, here, gs, k =>
    match p.run here gs k with
    | some r => some r
    | none => q.run here gs k
  | many accepts, here, gs, k => runMany accepts (fun next => k next gs) here.before here.rest
  | few accepts, here, gs, k => runFew accepts (fun next => k next gs) here.before here.rest
  | repeated p, here, gs, k =>
    runRepeated (fun place groups next => p.run place groups next) k here.rest.length here gs
  | named name p, here, gs, k =>
    p.run here gs fun next gs' =>
      k next ((name, here.rest.take (here.rest.length - next.rest.length)) :: gs')
  | start, here, gs, k => if here.before.isNone then k here gs else none
  | finish, here, gs, k => if here.rest.isEmpty || here.rest == ['\n'] then k here gs else none
  | ended, here, gs, k => if here.rest.isEmpty then k here gs else none
  | edge, here, gs, k => if here.atEdge then k here gs else none

structure Match where
  text : List Char
  rest : List Char
  groups : Groups

namespace Match

/-- The text of a named part, `none` if the match did not pass through it. -/
def group? (m : Match) (name : String) : Option String :=
  (m.groups.find? fun g => g.1 == name).map fun g => String.ofList g.2

/-- The text of a named part, empty if the match did not pass through it. -/
def group (m : Match) (name : String) : String :=
  (m.group? name).getD ""

end Match

def matchAt (p : Pattern) (here : Place) : Option Match :=
  p.run here [] fun next gs =>
    some ⟨here.rest.take (here.rest.length - next.rest.length), next.rest, gs⟩

def match? (p : Pattern) (s : String) : Option Match :=
  p.matchAt ⟨none, s.toList⟩

def full? (p : Pattern) (s : String) : Option Match :=
  (p ++ ended).match? s

def fits (p : Pattern) (s : String) : Bool :=
  (p.match? s).isSome

def searchFrom (p : Pattern) (before : List Char) : List Char → Option (List Char × Match)
  | [] => (p.matchAt ⟨before.head?, []⟩).map (before, ·)
  | c :: cs =>
    match p.matchAt ⟨before.head?, c :: cs⟩ with
    | some m => some (before, m)
    | none => searchFrom p (c :: before) cs

def search? (p : Pattern) (s : String) : Option (String × Match) :=
  (p.searchFrom [] s.toList).map fun (before, m) => (String.ofList before.reverse, m)

def occurs (p : Pattern) (s : String) : Bool :=
  (p.search? s).isSome

/-- Replace matches from the left. `skip` counts the characters of a match still
    to pass; an empty match replaces nothing and moves on. -/
def replaceFrom (p : Pattern) (f : Match → List Char) (before : Option Char) (skip : Nat) :
    List Char → List Char
  | [] => []
  | c :: cs =>
    match skip with
    | k + 1 => replaceFrom p f (some c) k cs
    | 0 =>
      match p.matchAt ⟨before, c :: cs⟩ with
      | some m =>
        match m.text with
        | [] => c :: replaceFrom p f (some c) 0 cs
        | _ :: more => f m ++ replaceFrom p f (some c) more.length cs
      | none => c :: replaceFrom p f (some c) 0 cs

/-- Every match replaced, for a pattern that fits no empty text. -/
def replaceAll (p : Pattern) (f : Match → String) (s : String) : String :=
  String.ofList (replaceFrom p (fun m => (f m).toList) none 0 s.toList)

def splitFrom (p : Pattern) (piece : List Char) (before : Option Char) (skip : Nat) :
    List Char → List (List Char)
  | [] => [piece.reverse]
  | c :: cs =>
    match skip with
    | k + 1 => splitFrom p piece (some c) k cs
    | 0 =>
      match p.matchAt ⟨before, c :: cs⟩ with
      | some m =>
        match m.text with
        | [] => splitFrom p (c :: piece) (some c) 0 cs
        | _ :: more => piece.reverse :: splitFrom p [] (some c) more.length cs
      | none => splitFrom p (c :: piece) (some c) 0 cs

def split (p : Pattern) (s : String) : List String :=
  (splitFrom p [] none 0 s.toList).map String.ofList

/-! ### Common pieces -/

def text (s : String) : Pattern :=
  s.toList.foldr (fun c p => seq (one (· == c)) p) nothing

def word (s : String) : Pattern :=
  s.toList.foldr (fun c p => seq (one (sameLetter c)) p) nothing

def oneOf : List Pattern → Pattern
  | [] => one fun _ => false
  | [p] => p
  | p :: ps => alt p (oneOf ps)

def optional (p : Pattern) : Pattern :=
  alt p nothing

def many1 (accepts : Char → Bool) : Pattern :=
  seq (one accepts) (many accepts)

def few1 (accepts : Char → Bool) : Pattern :=
  seq (one accepts) (few accepts)

/-- Any character but a line feed. -/
def onLine (c : Char) : Bool :=
  c != '\n'

def gap : Pattern :=
  many isBlank

def space : Pattern :=
  many1 isBlank

def chr (c : Char) : Pattern :=
  one (· == c)

end Pattern

end Loom.Text
