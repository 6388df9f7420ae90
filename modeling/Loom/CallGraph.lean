import Loom.Json.Writer
import Loom.Value.Access

/-!
# Call Graphs

The calls of a run drawn as a directed graph, one line for each call, in the
notation of graph drawing tools. A call that knows its step has it for a label.
-/

namespace Loom.CallGraph

open Loom.Text

def edgeLine (edge : Value) : Except Error String := do
  let caller ← Json.Style.line.encode (← edge.lookupD "from" "")
  let callee ← Json.Style.line.encode (← edge.lookupD "to" "")
  let arrow := "  " ++ caller ++ " -> " ++ callee
  match ← edge.lookup "atStep" with
  | .null => pure (arrow ++ ";")
  | step => pure (arrow ++ " [label=" ++ step.display ++ "];")

def graphText (edges : Value) : Except Error String := do
  let lines ← (← (edges.orElse (.list [])).items).mapM edgeLine
  pure (join "\n" ("digraph callgraph \x7b" :: lines ++ ["\x7d"]))

end Loom.CallGraph
