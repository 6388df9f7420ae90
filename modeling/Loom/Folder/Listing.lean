import Loom.Digest
import Loom.Files

/-!
# Listing a Folder

A folder as an indented tree, one line for each name: folders before files, each
sorted, the last name at a level with an end stroke. What tools leave behind is
left out, from snapshots too.
-/

namespace Loom.Folder

open Loom.Text

/-- The strokes of a drawing, each as wide as a level is deep. -/
structure Strokes where
  branch : String
  last : String
  pipe : String
  space : String

def Strokes.box : Strokes := ⟨"├── ", "└── ", "│   ", "    "⟩

def Strokes.plain : Strokes := ⟨"|-- ", "`-- ", "|   ", "    "⟩

def toolFolders : List String := [".venv", ".pytest_cache", "__pycache__", ".git"]

def isToolFolder (name : String) : Bool :=
  toolFolders.contains name || startsWith name ".git"

def isToolFile (name : String) : Bool :=
  name == ".DS_Store" || endsWith name ".pyc"

def withLast : List α → List (α × Bool)
  | [] => []
  | [x] => [(x, true)]
  | x :: rest => (x, false) :: withLast rest

def linesWithin (strokes : Strokes) (fs : Files) : Nat → String → String → List String
  | 0, _, _ => []
  | depth + 1, folder, margin =>
    let names := fs.names ((fs.real folder).getD folder)
    let folders := names.filter fun n => fs.isFolder (Path.joined folder n) && !isToolFolder n
    let files := names.filter fun n => fs.isFile (Path.joined folder n) && !isToolFile n
    let folderLines := (withLast folders).flatMap fun (n, final) =>
      let isLast := final && files.isEmpty
      (margin ++ (if isLast then strokes.last else strokes.branch) ++ n ++ "/") ::
        linesWithin strokes fs depth (Path.joined folder n)
          (margin ++ if isLast then strokes.space else strokes.pipe)
    let fileLines := (withLast files).map fun (n, final) =>
      margin ++ (if final then strokes.last else strokes.branch) ++ n
    folderLines ++ fileLines

/-- The levels of folders in a directory, links to folders followed as often as
    links may be. -/
def levels (fs : Files) : Nat :=
  let deepest := (fs.paths ++ fs.folders).foldl (fun n p => max n (Path.names p).length) 0
  (deepest + 1) * (if fs.links.isEmpty then 1 else Files.linkLimit)

def treeLines (strokes : Strokes) (fs : Files) : List String :=
  "." :: linesWithin strokes fs (levels fs) "" ""

/-!
### Snapshots

All files of a directory in one archive, with a manifest that lists them.
-/

/-- Whether a file is left out: something in its path is kept by tools for
    themselves. Both ways of writing paths are understood. -/
def isLeftOut (path : String) : Bool :=
  let parts := splitOn (replace path "\\" "/") "/"
  parts.dropLast.any toolFolders.contains || isToolFile (parts.getLast?.getD "")

def snapshotPaths (fs : Files) : List String :=
  ((fs.filesBelow "").filter fun p =>
    !(splitOn p "/").dropLast.any isToolFolder && !isLeftOut p).mergeSort fun a b => decide (a ≤ b)

def manifestPath : String := "snapshot_manifest.txt"

def manifestText (paths : List String) : String :=
  "SNAPSHOT MANIFEST\n" ++ join "\n" paths ++ "\n"

def readable (fs : Files) : List String → Archive × Option Error
  | [] => ([], none)
  | p :: rest =>
    match fs.text? p with
    | some t =>
      let (others, e) := readable fs rest
      ((p, t) :: others, e)
    | none => ([], some (fs.refusal p))

/-!
### The Inventory of a Folder

Everything below a folder: folders with their times, files with their sizes, times
and the beginning of a digest of their first megabyte. Folders come before files,
what is less deep before what is deeper, and then names decide.
-/

def hiddenFolders : List String :=
  [".git", ".hg", ".svn", "__pycache__", ".pytest_cache", ".DS_Store"]

def digestedBytes : Nat := 1024 * 1024

def fingerprint (fs : Files) (path : String) : String :=
  match fs.text? path with
  | some t => takeChars 10 (Digest.sha1 ((utf8 t).take digestedBytes))
  | none => repeated "0" 10

def shownPath (path : String) : String :=
  replace path "\\" "/"

def depthOf (path : String) : Nat :=
  (splitOn (shownPath path) "/").length

/-- Less deep paths first, then by name. -/
def comesBefore (a b : String) : Bool :=
  depthOf a < depthOf b || (depthOf a == depthOf b && decide (shownPath a ≤ shownPath b))

def isHidden (path : String) : Bool :=
  (Path.ancestors path).any fun p => hiddenFolders.contains (Path.base p)

/-- When things were last changed, by path, in seconds since the start of 1970. -/
abbrev Times := String → Int

def folderEntry (times : Times) (folder path : String) : Value :=
  .obj [("type", "dir"), ("path", shownPath path),
    ("mtime", .int (times (Path.joined folder path)))]

/-- A link that leads nowhere has no size and no time. -/
def fileEntry (fs : Files) (times : Times) (folder path : String) : Value :=
  let full := Path.joined folder path
  let (size, time) : Int × Int := match fs.text? full with
    | some t => (t.utf8ByteSize, times full)
    | none => (-1, 0)
  .obj [("type", "file"), ("path", shownPath path), ("size", .int size),
    ("sha1_1mb", fingerprint fs full), ("mtime", .int time)]

def entries (fs : Files) (times : Times) (folder : String) : List Value :=
  let folders := (fs.foldersBelow folder).filter fun p =>
    !isHidden p && !hiddenFolders.contains (Path.base p)
  let files := (fs.filesBelow folder).filter fun p => !isHidden p && Path.base p != ".DS_Store"
  (folders.mergeSort comesBefore).map (folderEntry times folder) ++
    (files.mergeSort comesBefore).map (fileEntry fs times folder)

def inventory (fs : Files) (times : Times) (now : Int) (folder shown : String) : Value :=
  .obj [("root", shownPath shown), ("generated_at", .int now),
    ("entries", entries fs times ((fs.real folder).getD folder))]

end Loom.Folder
