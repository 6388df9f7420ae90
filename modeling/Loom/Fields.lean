/-!
# Fields

Named entries in the order in which they were first written. Writing to a name
that is present keeps its place; removing a name and writing it again moves it
to the end. That order is seen wherever fields are listed, so it is part of the
data.
-/

namespace Loom

abbrev Fields (α : Type u) := List (String × α)

namespace Fields

variable {α : Type u}

def get? (fs : Fields α) (name : String) : Option α :=
  match fs with
  | [] => none
  | (k, v) :: rest => if k == name then some v else get? rest name

def getD (fs : Fields α) (name : String) (default : α) : α :=
  (fs.get? name).getD default

def has (fs : Fields α) (name : String) : Bool :=
  (fs.get? name).isSome

def put (fs : Fields α) (name : String) (value : α) : Fields α :=
  match fs with
  | [] => [(name, value)]
  | (k, v) :: rest => if k == name then (k, value) :: rest else (k, v) :: put rest name value

def erase (fs : Fields α) (name : String) : Fields α :=
  fs.filter fun f => f.1 != name

def keys (fs : Fields α) : List String :=
  fs.map Prod.fst

def merge (fs more : Fields α) : Fields α :=
  more.foldl (fun acc f => acc.put f.1 f.2) fs

def putNew (fs : Fields α) (name : String) (value : α) : Fields α :=
  if fs.has name then fs else fs.put name value

/-- The entry `old` moved to the end under the name `new`, if it is present. -/
def move (fs : Fields α) (old new : String) : Fields α :=
  match fs.get? old with
  | some v => (fs.erase old).put new v
  | none => fs

end Fields

end Loom
