import Loom.Error

/-!
# Files

The directory that a command works in: texts and archives by path, folders, and
links that stand for other paths. Paths are relative to the directory and
followed by name alone.
-/

namespace Loom

open Loom.Text

namespace Path

/-- The names along a path, last first, once `.` and `..` are followed. -/
def follow (done : List String) : List String → List String
  | [] => done
  | "" :: rest => follow done rest
  | "." :: rest => follow done rest
  | ".." :: rest =>
    match done with
    | [] => follow [".."] rest
    | ".." :: _ => follow (".." :: done) rest
    | _ :: up => follow up rest
  | name :: rest => follow (name :: done) rest

def names (path : String) : List String :=
  (follow [] (splitOn path "/")).reverse

/-- A path without detours. The directory itself is the empty path. -/
def normal (path : String) : String :=
  let rel := join "/" (names path)
  if startsWith path "/" then "/" ++ rel else rel

/-- A path as it is shown: without empty and idle names, detours kept. -/
def tidy (path : String) : String :=
  let rel := join "/" ((splitOn path "/").filter fun n => n != "" && n != ".")
  if startsWith path "//" && !startsWith path "///" then "//" ++ rel
  else if startsWith path "/" then "/" ++ rel
  else if rel.isEmpty then "."
  else rel

def base (path : String) : String :=
  (splitOn path "/").getLast?.getD ""

def parent (path : String) : String :=
  join "/" (splitOn path "/").dropLast

def joined (folder name : String) : String :=
  if folder.isEmpty then name
  else if startsWith name "/" then name
  else if endsWith folder "/" then folder ++ name
  else folder ++ "/" ++ name

/-- A path without the ending of its last name. Points at the start of a name
    begin no ending. -/
def withoutEnding (path : String) : String :=
  let name := (base path).toList
  let points := name.takeWhile (· == '.')
  let rest := name.drop points.length
  if rest.contains '.' then
    let kept := ((rest.reverse.dropWhile (· != '.')).drop 1).reverse
    takeChars (path.length - name.length) path ++ String.ofList (points ++ kept)
  else path

def ancestors (path : String) : List String :=
  let parts := splitOn path "/"
  (List.range (parts.length - 1)).map fun n => join "/" (parts.take (n + 1))

def below? (folder path : String) : Option String :=
  if folder.isEmpty then if startsWith path "/" then none else some path
  else if startsWith path (folder ++ "/") then some (dropChars (folder.length + 1) path)
  else none

end Path

abbrev Archive := List (String × String)

structure Files where
  texts : Fields String
  /-- Folders that need not hold anything. -/
  folders : List String
  archives : Fields Archive := []
  /-- The paths that links stand for, relative to the folders of the links. -/
  links : Fields String := []

namespace Files

def empty : Files := { texts := [], folders := [] }

/-- Every path that stands for something, folders apart. -/
def paths (fs : Files) : List String :=
  fs.texts.keys ++ fs.archives.keys ++ fs.links.keys

/-- Links followed one after the other count against this limit. -/
def linkLimit : Nat := 40

def realFrom (fs : Files) : Nat → String → List String → Option String
  | _, done, [] => some done
  | 0, done, name :: rest =>
    if fs.links.has (Path.joined done name) then none
    else realFrom fs 0 (Path.joined done name) rest
  | fuel + 1, done, name :: rest =>
    match fs.links.get? (Path.joined done name) with
    | none => realFrom fs (fuel + 1) (Path.joined done name) rest
    | some target => realFrom fs fuel "" (Path.names (Path.joined done target) ++ rest)
termination_by fuel _ rest => (fuel, rest.length)

def real (fs : Files) (path : String) : Option String :=
  let p := Path.normal path
  if fs.links.isEmpty || startsWith p "/" then some p
  else realFrom fs linkLimit "" (Path.names p)

def text? (fs : Files) (path : String) : Option String :=
  (fs.real path).bind fs.texts.get?

def isFile (fs : Files) (path : String) : Bool :=
  match fs.real path with
  | some p => fs.texts.has p || fs.archives.has p
  | none => false

/-- Whether a path without links is a folder. -/
def holdsFolder (fs : Files) (p : String) : Bool :=
  p == "/" || (Path.names p).all (· == "..") || fs.folders.contains p ||
    fs.paths.any (fun t => startsWith t (p ++ "/")) ||
    fs.folders.any (fun f => startsWith f (p ++ "/"))

def isFolder (fs : Files) (path : String) : Bool :=
  match fs.real path with
  | some p => fs.holdsFolder p
  | none => false

def exists? (fs : Files) (path : String) : Bool :=
  fs.isFile path || fs.isFolder path

/-- Walk along the names of a path. A name that is too long fails when it is
    reached, and a name that is missing ends the walk. -/
def walk (fs : Files) (path : String) (done : String) : List String → Except Error Bool
  | [] => .ok (fs.exists? done)
  | name :: rest =>
    if name.utf8ByteSize > 255 then .error (.longPath path)
    else
      let here := Path.joined done name
      if rest.isEmpty || fs.isFolder here then walk fs path here rest else .ok false

def checkExists (fs : Files) (path : String) : Except Error Bool :=
  let tidy := Path.tidy path
  if path.contains '\x00' then .ok false
  else if tidy.utf8ByteSize ≥ 4096 then .error (.longPath tidy)
  else if startsWith tidy "/" then .ok ((Path.names tidy).isEmpty || fs.exists? tidy)
  else walk fs tidy "" ((splitOn tidy "/").filter (· != "."))

def checkFile (fs : Files) (path : String) : Except Error Bool := do
  pure ((← fs.checkExists path) && fs.isFile (Path.tidy path))

def write (fs : Files) (path text : String) : Files :=
  { fs with texts := fs.texts.put (Path.normal path) text }

def remove (fs : Files) (path : String) : Files :=
  { fs with texts := fs.texts.erase (Path.normal path) }

def addFolder (fs : Files) (path : String) : Files :=
  let p := Path.normal path
  if fs.isFolder p then fs else { fs with folders := fs.folders ++ [p] }

def addLink (fs : Files) (path target : String) : Files :=
  { fs with links := fs.links.put (Path.normal path) target }

def refusal (fs : Files) (path : String) : Error :=
  if fs.isFolder path && !path.isEmpty then .isFolder path
  else if (Path.ancestors (Path.normal path)).any fs.isFile then .notFolder path
  else .noFile path

/-- A text with plain line ends. -/
def read (fs : Files) (path : String) : Except Error String :=
  match fs.text? path with
  | some t => .ok (readLines t)
  | none => .error (fs.refusal path)

def readJson (fs : Files) (path : String) : Except Error Value := do
  match Json.read (← fs.read path) with
  | .ok v => pure v
  | .error f => throw (.json f)

def place (fs : Files) (path : String) : Except Error String :=
  match fs.real path with
  | none => .error (.noFile path)
  | some p =>
    if path.isEmpty || fs.holdsFolder p || !fs.isFolder (Path.parent p) then
      .error (fs.refusal path)
    else .ok p

def save (fs : Files) (path text : String) : Except Error Files := do
  let p ← fs.place path
  pure { fs with texts := fs.texts.put p text, archives := fs.archives.erase p }

def saveArchive (fs : Files) (path : String) (archive : Archive) : Except Error Files := do
  let p ← fs.place path
  pure { fs with archives := fs.archives.put p archive, texts := fs.texts.erase p }

def makeFolder (fs : Files) (path : String) : Except Error Files :=
  let p := Path.normal path
  if fs.isFile p then .error (.fileExists path)
  else if (Path.ancestors p).any fs.isFile then .error (.notFolder path)
  else .ok (fs.addFolder p)

def names (fs : Files) (folder : String) : List String :=
  let first (p : String) : Option String :=
    ((Path.below? folder p).bind fun rest => (splitOn rest "/").head?).filter (· != "")
  ((fs.paths ++ fs.folders).filterMap first).eraseDups.mergeSort fun a b => decide (a ≤ b)

def foldersBelow (fs : Files) (folder : String) : List String :=
  ((fs.paths.flatMap Path.ancestors ++ fs.folders.flatMap fun f => Path.ancestors f ++ [f])
    |>.filterMap (Path.below? folder)).filter (· != "") |>.eraseDups

def filesBelow (fs : Files) (folder : String) : List String :=
  ((fs.paths.filter fun p => !fs.isFolder p).filterMap (Path.below? folder)).eraseDups

end Files

end Loom
