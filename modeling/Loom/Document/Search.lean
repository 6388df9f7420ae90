import Loom.Slug
import Loom.Value.Access

/-!
# Modules of a Document

A document lists modules, each bare or in a wrapper, and a module is found by its
name. Names that have the same slug name the same module, and the first module
found is taken.
-/

namespace Loom.Document

/-- A document of modules. A bare list stands for one, and what is neither has no
    modules. -/
def modulesDocument (doc : Value) : Value :=
  match doc with
  | .obj fs => if Fields.has fs "modules" then doc else .obj [("modules", .list [])]
  | .list ms => .obj [("modules", ms)]
  | _ => .obj [("modules", .list [])]

def nameOf? (m : Value) : Except Error (Option Value) := do
  let own ← m.lookup "name"
  if own.isStr then pure (some own)
  else
    let inner := (m.field "module").field "name"
    pure (if inner.isStr then some inner else none)

def sameName (a b : Value) : Bool :=
  a.same b || slugOf a == slugOf b

/-- The first module whose name, given by `nameOf`, means the same as `name`. -/
def findFirst (nameOf : Value → Except Error Value) (name : Value) :
    List Value → Except Error (Option Value)
  | [] => .ok none
  | m :: rest => do
    if sameName (← nameOf m) name then pure (some m) else findFirst nameOf name rest

def findModule (doc name : Value) : Except Error (Option Value) := do
  let modules ← ((modulesDocument doc).field "modules").items
  findFirst (fun m => do pure ((← nameOf? m).getD .null)) name modules

def findNamed (doc name : Value) : Except Error (Option Value) := do
  let modules ← ((← doc.lookup "modules").orElse (.list [])).items
  findFirst (fun m => do
    let inner ← m.lookup "module"
    pure ((if inner.isObj then inner else m).field "name")) name modules

end Loom.Document
