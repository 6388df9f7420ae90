import Loom.Briefing
import Loom.Command.Basic
import Loom.Folder.Listing
import Loom.Json.Writer

/-!
# Working with Folders

The commands that draw the directory, take the inventory of a folder, pack the
directory into an archive, and write the briefing.
-/

namespace Loom.Command

open Loom.Text Loom.Folder

namespace Folders

structure Drawing where
  path : String := "loom_tree.txt"
  strokes : Strokes := .box

/-- A word is a style or a path. The last of each counts. -/
def Drawing.addWord (d : Drawing) (word : String) : Drawing :=
  if startsWith word "--style=" then
    let style := lower (strip (dropChars 8 word))
    { d with strokes := if style == "ascii" then .plain else .box }
  else { d with path := word }

def listUsage : Usage where
  choices := [.value "--root" "ROOT" "Folder to inventory", .flag "--pretty" "Pretty-print JSON"]

def fullPath (path : String) : Command String := do
  let p := Path.normal path
  let folder := (← get).folder
  pure (if p.isEmpty then folder else folder ++ "/" ++ p)

/-- Pack the files at some paths and a text of its own. An archive that cannot be
    completed holds what came before the fault. -/
def pack (path : String) (paths : List String) (more : Archive) : Command Unit := do
  match readable (← directory) paths with
  | (archive, none) => change path (·.saveArchive path (archive ++ more))
  | (archive, some e) =>
    change path (·.saveArchive path archive)
    fail e

def briefingFolder : String := "codex_context_port"

end Folders

open Folders in
def drawTree (words : List String) : Command Int := do
  let d := words.foldl Drawing.addWord {}
  let drawn := treeLines d.strokes (← directory)
  save d.path (join "\n" drawn ++ "\n")
  print ("Wrote " ++ d.path ++ " (" ++ Decimal.showInt drawn.length ++ " lines)")
  pure 0

open Folders in
def listFolder (words : List String) : Command Int := do
  let a ← arguments listUsage words
  let root := (a.value? "--root").getD "agents/loomweaver"
  let d ← get
  if root.isEmpty || !d.files.isFolder root then return 2
  let style := if a.has "--pretty" then Json.Style.pretty else Json.Style.line
  print (← style.encode
    (inventory d.files d.times d.clock.seconds root (← fullPath root)))
  pure 0

open Folders in
def takeSnapshot (words : List String) : Command Unit := do
  if words.length > 2 then fail (.tooManyArguments words.length 2)
  let folder := words.getD 0 "."
  let name := words.getD 1 "loomweaver_full"
  if folder.isEmpty then fail (.noFile folder)
  makeFolder folder
  let d ← get
  let path := Path.joined folder (name ++ "-" ++ d.clock.stamp ++ ".zip")
  let paths := snapshotPaths d.files
  let manifest := manifestText paths
  save manifestPath manifest
  pack path paths [(manifestPath, manifest)]
  print ("Wrote " ++ path)
  print ("Included " ++ Decimal.showInt paths.length ++ " files. Manifest: " ++ manifestPath)

open Folders in
def writeBriefing : Command Unit := do
  let d ← get
  for (name, text) in Briefing.briefing d.clock.spoken do
    let path := briefingFolder ++ "/" ++ name
    makeFolder (Path.parent path)
    save path text
  let files ← directory
  let archive := briefingFolder ++ ".zip"
  pack archive ((files.filesBelow briefingFolder).map (Path.joined briefingFolder)) []
  print ("Wrote: " ++ briefingFolder)
  print ("Zipped: " ++ archive)

end Loom.Command
