import Loom.Files
import Loom.Receipt
import Loom.Value.Arith

/-!
# Packs of Verbs

Authors write steps with verbs of their trade. A pack maps such verbs to the seven
that run, with arguments that are filled in and capabilities that are needed. The
core pack is always loaded and the packs asked for follow; of two mappings of one
verb the one loaded last counts.
-/

namespace Loom.Overlay

open Loom.Text

structure Mapping where
  overlay : String
  version : String
  verb : String
  /-- The verb that runs, a list of them, or null. -/
  mapped : Value
  body : Value
  capabilities : List Value

namespace Mapping

def toValue (m : Mapping) : Value :=
  .obj [("overlay", m.overlay), ("version", m.version), ("verb", m.verb),
    ("mappedVerb", m.mapped), ("mapping", m.body), ("capabilities", m.capabilities)]

def ofEntry (overlay version verb : String) (body : Value) : Except Error Mapping := do
  let mapped ← body.lookup "mappedVerb"
  let capabilities ← (body.fieldD "capabilities" (.list [])).items
  let mapped := match mapped with
    | .list xs => .list xs
    | .null => .null
    | v => .str v.display
  pure ⟨overlay, version, verb, mapped, body, capabilities⟩

end Mapping

abbrev Table := Fields Mapping

def readPack (pack : Value) : Except Error Table := do
  let overlay ← pack.lookup "overlay"
  let version ← pack.lookup "version"
  match ← pack.lookupD "verbs" (.obj []) with
  | .obj verbs => verbs.mapM fun (verb, body) => do
      pure (verb, ← Mapping.ofEntry overlay.display version.display verb body)
  | v => throw (.noMember v.kind.name "items")

def packFolder : String := "agents/loomweaver/overlays"

def packPath (name : String) : String :=
  packFolder ++ "/verbs." ++ name ++ ".json"

def loadOver (files : Files) (table : Table) : List String → Except Error Table
  | [] => .ok table
  | name :: rest => do
    let path := packPath name
    if !files.isFile path then throw (.overlay (.noPack name path))
    loadOver files (table.merge (← readPack (← files.readJson path))) rest

def load (files : Files) (names : List String) : Except Error Table := do
  let path := packPath "core"
  if !files.isFile path then throw (.overlay (.noCore path))
  loadOver files (← readPack (← files.readJson path)) names

/-!
### Expanding Steps

A step whose verb a pack maps becomes the steps that the mapping gives; a step
with one of the seven verbs stays. Any other step stays too, with a warning, or is
refused if unknown verbs are. The author's arguments win over those of the
mapping. Every step that comes out is marked with the step it came from.

Steps are expanded one by one, so the expansion of a list is put together from
the expansions of its steps.
-/

structure Options where
  noUnknownVerbs : Bool := false
  enforce : Bool := false
  granted : List Value := []

def canonicalVerbs : List String :=
  ["Make", "Show", "Return", "Ask", "Choose", "Repeat", "Call"]

/-- Whether a value is a verb that runs. A list or an object cannot be asked. -/
def isCanonical (verb : Value) : Except Error Bool := do
  match ← verb.toName with
  | some v => pure (canonicalVerbs.contains v)
  | none => pure false

/-- A value placed before the first that is not less than it. -/
def insertOrdered (v : Value) : List Value → Except Error (List Value)
  | [] => .ok [v]
  | w :: rest => do
    if ← Value.compareBy .lt v w then pure (v :: w :: rest)
    else pure (w :: (← insertOrdered v rest))

def distinct (v : Value) : Except Error (List Value) := do
  let items ← (v.orElse (.list [])).items
  let _ ← items.mapM Value.toName
  pure (items.foldl (fun acc x => if x.isIn acc then acc else acc ++ [x]) [])

def missingCapabilities (needed granted : Value) : Except Error (List Value) := do
  let needed ← distinct needed
  let granted ← distinct granted
  (needed.filter fun c => !c.isIn granted).foldlM (fun acc c => insertOrdered c acc) []

def namesFrom (index : Nat) : List Value → Except Error (List String)
  | [] => .ok []
  | .str s :: rest => do pure (s :: (← namesFrom (index + 1) rest))
  | v :: _ => .error (.badJoin index v.kind)

structure Origin where
  lineage : Lineage
  notes : Value

def Origin.toValue (o : Origin) : Value :=
  .obj (o.lineage.fields ++ [("notes", o.notes)])

/-- The steps that steps became, where they came from, and what to warn about. -/
structure Expansion where
  steps : List Value
  origins : List Origin
  warnings : List String

namespace Expansion

def empty : Expansion := ⟨[], [], []⟩

def append (a b : Expansion) : Expansion :=
  ⟨a.steps ++ b.steps, a.origins ++ b.origins, a.warnings ++ b.warnings⟩

end Expansion

def annotate (step : Value) (lineage : Lineage) : Except Error Value := do
  let args ← (step.field "args").toFieldsOrNone
  match step.setField "args" (.obj args) with
  | .obj fs => pure (.obj (Fields.merge fs lineage.fields))
  | v => pure v

def mergeArgs (given : Fields Value) (args : Value) : Except Error Value :=
  match args with
  | .obj fs => .ok (.obj (Fields.merge given fs))
  | _ => .error (.notMapping args.kind)

def stepOf (verb args : Value) : Value :=
  .obj [("verb", verb), ("args", args)]

def requireCanonical (verb : Value) : Except Error Unit := do
  if !(← isCanonical verb) then throw (.overlay (.notCanonical verb))

/-- A stage of a pipeline: one verb and its arguments. -/
def stageStep (raw args stage : Value) : Except Error Value := do
  match stage with
  | .obj [(verb, given)] =>
    requireCanonical (.str verb)
    pure (stepOf (.str verb) (← mergeArgs (← given.toFieldsOrNone) args))
  | _ => throw (.overlay (.badStage raw stage))

def entryFields : List String := ["mappedVerb", "notes", "pipeline", "capabilities"]

def mappedSteps (m : Mapping) (raw args : Value) : Except Error (List Value) := do
  match m.mapped with
  | .list verbs =>
    let pipeline := m.body.fieldD "pipeline" (.list [])
    if pipeline.truthy then (← pipeline.items).mapM (stageStep raw args)
    else verbs.mapM fun verb => do
      requireCanonical verb
      pure (stepOf verb (.obj (← args.toFields)))
  | verb =>
    requireCanonical verb
    let defaults := (m.body.obj?.getD []).filter fun f => !entryFields.contains f.1
    pure [stepOf verb (← mergeArgs defaults args)]

def checkMapping (m : Mapping) (options : Options) (raw : Value) :
    Except Error (String × List String) := do
  let missing ← missingCapabilities (.list m.capabilities) (.list options.granted)
  if m.capabilities.isEmpty || missing.isEmpty then pure ("pass", [])
  else if options.enforce then
    throw (.overlay (.notGranted raw (← namesFrom 0 missing)))
  else
    let needed ← namesFrom 0 m.capabilities
    let lacking ← namesFrom 0 missing
    pure ("warn", ["Verb '" ++ raw.display ++ "' requires capabilities: " ++ join ", " needed ++
      " (missing: " ++ join ", " lacking ++ ")"])

def expandMapped (m : Mapping) (options : Options) (raw args : Value) : Except Error Expansion := do
  let (status, warnings) ← checkMapping m options raw
  let steps ← mappedSteps m raw args
  let lineage : Lineage := ⟨raw, m.mapped, .str m.overlay, .str m.version, .str status⟩
  pure ⟨← steps.mapM (annotate · lineage), [⟨lineage, .null⟩], warnings⟩

def expandPlain (options : Options) (step raw args : Value) : Except Error Expansion := do
  if ← isCanonical raw then
    let lineage : Lineage := ⟨raw, raw, .null, .null, .str "n/a"⟩
    let step := (step.setField "verb" raw).setField "args" (.obj (← args.toFields))
    pure ⟨[← annotate step lineage], [⟨lineage, .str "canonical-pass-through"⟩], []⟩
  else if options.noUnknownVerbs then throw (.overlay (.unknownVerb raw))
  else
    let lineage : Lineage := ⟨raw, .null, .null, .null, .str "n/a"⟩
    pure ⟨[← annotate step lineage], [⟨lineage, .str "No overlay mapping; left as-is."⟩],
      ["Unknown verb: " ++ raw.display]⟩

def mapping? (table : Table) (raw : Value) : Except Error (Option Mapping) := do
  match ← raw.toName with
  | some verb => pure (table.get? verb)
  | none => pure none

def expandStep (table : Table) (options : Options) (step : Value) : Except Error Expansion := do
  let raw ← step.lookup "verb"
  let args := (step.field "args").orElse (.obj [])
  match ← mapping? table raw with
  | some m => expandMapped m options raw args
  | none => expandPlain options step raw args

def expandSteps (table : Table) (options : Options) : List Value → Except Error Expansion
  | [] => .ok .empty
  | step :: rest => do
    let first ← expandStep table options step
    pure (first.append (← expandSteps table options rest))

/-!
### Expanding Modules

A module is expanded from the outside in: first the steps of a list, then the
steps inside each step that came out, in the branches of a choice, in the block of
a loop, or among its arguments. Mappings may bring steps of their own, so the
nesting is bounded by a depth.
-/

abbrev Warned (α : Type) := α × List String

def expandBranches (inner : List Value → Except Error (Warned (List Value))) :
    List Value → Except Error (Warned (List Value))
  | [] => .ok ([], [])
  | b :: rest => do
    let steps ← b.lookup "steps"
    let (steps, warnings) ← inner (← (steps.orElse (.list [])).items)
    let (others, more) ← expandBranches inner rest
    pure (b.setField "steps" (.list steps) :: others, warnings ++ more)

def expandChoice (inner : List Value → Except Error (Warned (List Value))) (args : Value) :
    Except Error (Warned Value) := do
  match args.field "branches" with
  | .list bs =>
    let (bs, warnings) ← expandBranches inner bs
    pure (args.setField "branches" (.list bs), warnings)
  | _ => pure (args, [])

/-- The block of a loop, in its arguments or beside them. -/
def blockOf (step args : Value) : Value :=
  match args.field "block", step.field "block" with
  | .null, .obj fs => .obj fs
  | .null, .list xs => .obj [("steps", xs)]
  | b, _ => b

def expandLoop (inner : List Value → Except Error (Warned (List Value))) (step args : Value) :
    Except Error (Warned Value) := do
  match blockOf step args with
  | .obj fs =>
    let (steps, warnings) ← inner (← ((Value.field (.obj fs) "steps").orElse (.list [])).items)
    pure (args.setField "block" (.obj (Fields.put fs "steps" (.list steps))), warnings)
  | .list xs =>
    let (steps, warnings) ← inner xs
    pure (args.setField "block" (.obj [("steps", steps)]), warnings)
  | _ => pure (args, [])

def expandInside (inner : List Value → Except Error (Warned (List Value))) (step : Value) :
    Except Error (Warned Value) := do
  let args := (step.field "args").orElse (.obj [])
  let verb := step.field "verb"
  let (args, first) ← if verb.isText "Choose" then expandChoice inner args else pure (args, [])
  let (args, second) ←
    if verb.isText "Repeat" then expandLoop inner step args else pure (args, [])
  let step := if verb.isText "Repeat" then step.dropField "block" else step
  let (args, third) ← match args.field "steps" with
    | .list xs => do
      let (xs, warnings) ← inner xs
      pure (args.setField "steps" (.list xs), warnings)
    | _ => pure (args, [])
  pure (step.setField "args" args, first ++ second ++ third)

def expandEach (inner : List Value → Except Error (Warned (List Value))) :
    List Value → Except Error (Warned (List Value))
  | [] => .ok ([], [])
  | s :: rest => do
    let (s, warnings) ← expandInside inner s
    let (others, more) ← expandEach inner rest
    pure (s :: others, warnings ++ more)

/-- Steps expanded, and the steps inside them to a given depth. -/
def expandList (table : Table) (options : Options) :
    Nat → List Value → Except Error (Warned (List Value))
  | 0, _ => .error .tooDeep
  | depth + 1, steps => do
    let e ← expandSteps table options steps
    let (steps, warnings) ← expandEach (expandList table options depth) e.steps
    pure (steps, e.warnings ++ warnings)

/-- The levels of steps inside steps that are followed. -/
def depthLimit : Nat := 300

def expandFlow (table : Table) (options : Options) (m : Value) : Except Error (Warned Value) := do
  match ← m.lookup "flow" with
  | .list steps =>
    let (steps, warnings) ← expandList table options depthLimit steps
    pure (m.setField "flow" (.list steps), warnings)
  | _ =>
    match m.field "steps", m.hasField "flow" with
    | .list steps, false => do
      let (steps, warnings) ← expandList table options depthLimit steps
      pure (m.setField "steps" (.list steps), warnings)
    | _, _ => pure (m, [])

def expandModule (table : Table) (options : Options) (m : Value) : Except Error (Warned Value) := do
  if m.isNull then pure (m, [])
  else
    let inner ← m.lookup "module"
    if inner.isObj then
      let (inner, warnings) ← expandFlow table options inner
      pure (m.setField "module" inner, warnings)
    else expandFlow table options m

def expandModules (table : Table) (options : Options) :
    List Value → Except Error (Warned (List Value))
  | [] => .ok ([], [])
  | m :: rest => do
    let (m, warnings) ← expandModule table options m
    let (others, more) ← expandModules table options rest
    pure (m :: others, warnings ++ more)

def expandDocument (table : Table) (options : Options) (doc : Value) :
    Except Error (Warned Value) := do
  match ← doc.lookup "modules" with
  | .list ms =>
    let (ms, warnings) ← expandModules table options ms
    pure (doc.setField "modules" (.list ms), warnings)
  | _ => pure (doc, [])

/-!
### The Packs at Hand

The two packs that every directory has: the core verbs, which are always loaded,
and the verbs of research.
-/

def corePack : String :=
  "\x7b\n" ++
  "  \"overlay\": \"core\",\n" ++
  "  \"version\": \"0.1.0\",\n" ++
  "  \"verbs\": \x7b\n" ++
  "    \"Query\": \x7b\n" ++
  "      \"mappedVerb\": \"Call\",\n" ++
  "      \"notes\": \"Used to fetch from a module or resource.\"\n" ++
  "    \x7d,\n" ++
  "    \"Summarize\": \x7b\n" ++
  "      \"mappedVerb\": \"Call\",\n" ++
  "      \"op\": \"xml.firstTitle\",\n" ++
  "      \"defaultInto\": \"summary\",\n" ++
  "      \"notes\": \"Summarize by extracting first <title> from XML (fixture-backed).\"\n" ++
  "    \x7d,\n" ++
  "    \"Report\": \x7b\n" ++
  "      \"mappedVerb\": [\"Make\", \"Show\"],\n" ++
  "      \"pipeline\": [\n" ++
  "        \x7b \"Make\": \x7b \"op\": \"format.compose\" \x7d \x7d,\n" ++
  "        \x7b \"Show\": \x7b \"sink\": \"stdout\" \x7d \x7d\n" ++
  "      ],\n" ++
  "      \"notes\": \"Report = format then show on stdout.\"\n" ++
  "    \x7d,\n" ++
  "    \"Explain\": \x7b\n" ++
  "      \"mappedVerb\": \"Show\",\n" ++
  "      \"sink\": \"stdout\",\n" ++
  "      \"notes\": \"Explain = show text to stdout.\"\n" ++
  "    \x7d,\n" ++
  "    \"Check\": \x7b\n" ++
  "      \"mappedVerb\": \"Choose\",\n" ++
  "      \"notes\": \"Check = branch/conditional.\"\n" ++
  "    \x7d\n" ++
  "  \x7d\n" ++
  "\x7d\n"

def researchPack : String :=
  "\x7b
  \"overlay\": \"research\",
  \"version\": \"0.1.0\",
  \"verbs\": \x7b
    \"Research\": \x7b
      \"mappedVerb\": \"Call\",
      \"capabilities\": [\"network:fetch\"],
      \"notes\": \"Perform a research fetch (fixture-backed in tests).\"
    \x7d,
    \"Review\": \x7b
      \"mappedVerb\": \"Show\",
      \"sink\": \"stdout\",
      \"notes\": \"Display retrieved material.\"
    \x7d,
    \"Compare\": \x7b
      \"mappedVerb\": \"Choose\",
      \"notes\": \"Compare → branch logic.\"
    \x7d,
    \"Cite\": \x7b
      \"mappedVerb\": \"Make\",
      \"op\": \"format.citation\",
      \"notes\": \"Format citation text.\"
    \x7d,
    \"Draft\": \x7b
      \"mappedVerb\": \"Make\",
      \"op\": \"text.compose\",
      \"notes\": \"Create a draft text.\"
    \x7d,
    \"Revise\": \x7b
      \"mappedVerb\": \"Make\",
      \"op\": \"text.rewrite\",
      \"notes\": \"Revise a draft text.\"
    \x7d,
    \"Narrate\": \x7b
      \"mappedVerb\": \"Call\",
      \"op\": \"audio.tts\",
      \"capabilities\": [\"audio:tts\"],
      \"notes\": \"Convert text to speech (requires capability).\"
    \x7d,
    \"Illustrate\": \x7b
      \"mappedVerb\": \"Call\",
      \"op\": \"image.gen\",
      \"capabilities\": [\"image:gen\"],
      \"notes\": \"Generate an illustration (requires capability).\"
    \x7d
  \x7d
\x7d
"

def withPacks (files : Files) : Files :=
  (files.write (packPath "core") corePack).write (packPath "research") researchPack

end Loom.Overlay
