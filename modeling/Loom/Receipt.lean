import Loom.Value.Access

/-!
# Receipts

A run leaves a receipt: what it asked for, which modules it called, what it
logged, the variables at its end, and an entry for every step it took. An entry
tells where its step came from, its lineage.
-/

namespace Loom

/-- Where a step came from: the verb that its author wrote, the verb that runs,
    and the pack that maps the one to the other. -/
structure Lineage where
  rawVerb : Value
  mappedVerb : Value
  overlayDomain : Value
  overlayVersion : Value
  capabilityCheck : Value

namespace Lineage

def ofValue (v : Value) : Lineage where
  rawVerb := v.field "rawVerb"
  mappedVerb := v.field "mappedVerb"
  overlayDomain := v.field "overlayDomain"
  overlayVersion := v.field "overlayVersion"
  capabilityCheck := v.field "capabilityCheck"

def orVerb (l : Lineage) (verb : Value) : Lineage where
  rawVerb := if l.rawVerb.isNull then verb else l.rawVerb
  mappedVerb := if l.mappedVerb.isNull then verb else l.mappedVerb
  overlayDomain := l.overlayDomain
  overlayVersion := l.overlayVersion
  capabilityCheck := if l.capabilityCheck.isNull then .str "n/a" else l.capabilityCheck

def fields (l : Lineage) : Fields Value :=
  [("rawVerb", l.rawVerb), ("mappedVerb", l.mappedVerb), ("overlayDomain", l.overlayDomain),
    ("overlayVersion", l.overlayVersion), ("capabilityCheck", l.capabilityCheck)]

def ofStep (step : Value) : Lineage :=
  (ofValue step).orVerb (step.field "verb")

def mark (l : Lineage) (entry : Fields Value) : Fields Value :=
  Fields.merge entry (l.orVerb (entry.getD "verb" .null)).fields

end Lineage

structure Receipt where
  ask : List Value
  callGraph : List Value
  /-- The variables at the end of the last run that finished. -/
  env : Fields Value
  logs : List Value
  steps : List Value

namespace Receipt

def empty : Receipt := ⟨[], [], [], [], []⟩

def restart (r : Receipt) : Receipt :=
  { empty with env := r.env }

def addStep (r : Receipt) (l : Lineage) (entry : Fields Value) : Receipt :=
  { r with steps := r.steps ++ [.obj (l.mark entry)] }

def addLog (r : Receipt) (entry : Value) : Receipt :=
  { r with logs := r.logs ++ [entry] }

def addAsk (r : Receipt) (entry : Value) : Receipt :=
  { r with ask := r.ask ++ [entry] }

def addCall (r : Receipt) (entry : Value) : Receipt :=
  { r with callGraph := r.callGraph ++ [entry] }

def toValue (r : Receipt) : Value :=
  .obj [("ask", r.ask), ("callGraph", r.callGraph), ("engine", "interpreter"),
    ("env", .obj r.env), ("logs", r.logs), ("steps", r.steps)]

end Receipt

end Loom
