import Loom.Proofs.Inside

/-!
# What a Verb Mapped to One Verb Keeps

A pack may give one of the seven verbs another name. A step under the new name should then
become what the same step becomes under the old one, but for its lineage. Under the old
name the whole step goes on. Under the new name a step is made from the verb and the
arguments alone, so whatever the author wrote beside them is lost: the block of a loop, the
branches of a choice, a note. And the arguments have to be an object, where under the old
name a list of pairs is read as one.

Both ways lead through the same three places inside the step. They agree if and only if
there is nothing to lose, `Bare`.
-/

namespace Loom

open List Value Fields

namespace Fields

theorem merge_eq_append {α : Type} {fs more : Fields α} (hnodup : more.keys.Nodup)
    (hnew : ∀ name ∈ more.keys, fs.get? name = none) : fs.merge more = fs ++ more := by
  induction more generalizing fs with
  | nil => exact (append_nil fs).symm
  | cons f more ih =>
    rw [keys, map_cons, nodup_cons] at hnodup
    have hf : fs.get? f.1 = none := hnew f.1 mem_cons_self
    change merge (fs.put f.1 f.2) more = _
    rw [ih hnodup.2, put_of_get?_eq_none hf, append_assoc, singleton_append]
    intro name hname
    have hne : f.1 ≠ name := by
      intro h
      exact hnodup.1 (by rw [h]; exact hname)
    rw [get?_put_of_ne _ hne]
    exact hnew name (mem_cons_of_mem _ hname)

end Fields

namespace Overlay

/-- A table gives a verb another name: it maps the name to the verb alone, without
    arguments of its own, and needs nothing that is not granted. -/
structure Renames (table : Table) (options : Options) (name verb : String) (m : Mapping) :
    Prop where
  mapped : table.get? name = some m
  single : m.mapped = .str verb
  canonical : verb ∈ canonicalVerbs
  unmapped : table.get? verb = none
  noDefaults : ((m.body.obj?.getD []).filter fun f => !entryFields.contains f.1) = []
  granted : missingCapabilities (.list m.capabilities) (.list options.granted) = .ok []

def flowOf (step : Value) : Value := .obj [("flow", .list [step])]

/-- Two steps are the same but for their lineage. -/
def SameContent (a b : Value) : Prop := ∀ name, name ∉ Lineage.names → a.field? name = b.field? name

/-- Two expansions of a module with one step fail alike, or they give steps that are the
    same but for their lineage, with the same warnings. -/
def Alike (a b : Except Error (Warned Value)) : Prop := (∃ err, a = .error err ∧ b = .error err) ∨
    ∃ x y warnings, a = .ok (flowOf x, warnings) ∧ b = .ok (flowOf y, warnings) ∧ SameContent x y

/-- A step has nothing beside its verb and its arguments that would be kept if it had one of
    the seven verbs. A loop may have a block there if it is not the one that is repeated. -/
structure Bare (step : Value) (verb : String) : Prop where
  args : (argsOf step).isObj
  fields : ∀ name, step.hasField name →
    name ∈ "verb" :: "args" :: Lineage.names ∨ (verb = "Repeat" ∧ name = "block")
  block : verb = "Repeat" → blockOf step (argsOf step) = (argsOf step).field "block"

def madeAnew (verb : String) (args : Fields Value) : Fields Value :=
  [("verb", .str verb), ("args", .obj args)]

/-- A step that goes on whole. -/
def wentOn (fs : Fields Value) (verb : String) (args : Fields Value) : Fields Value :=
  (fs.put "verb" (.str verb)).put "args" (.obj args)

variable {table : Table} {options : Options} {name verb : String} {m : Mapping}
  {fs gs args : Fields Value}

/-! ### One step under either name -/

def renamed (m : Mapping) (name verb : String) : Lineage :=
  ⟨.str name, .str verb, .str m.overlay, .str m.version, .str "pass"⟩

theorem expandStep_eq_of_renames (h : Renames table options name verb m)
    (hverb : fs.get? "verb" = some (.str name)) : expandStep table options (.obj fs) = (do
      let args ← mergeArgs [] (argsOf (.obj fs))
      let step ← annotate (stepOf (.str verb) args) (renamed m name verb)
      pure ⟨[step], [⟨renamed m name verb, .null⟩], []⟩) := by
  have hlookup : (obj fs).lookup "verb" = .ok (.str name) := by
    rw [Value.lookup, Value.lookup?, hverb]
    rfl
  have hmapping : mapping? table (.str name) = .ok (some m) := congrArg Except.ok h.mapped
  have hcheck : checkMapping m options (.str name) = .ok ("pass", []) := by
    rw [checkMapping, h.granted]
    cases m.capabilities <;> rfl
  have hmapped : expandStep table options (.obj fs) =
      expandMapped m options (.str name) (argsOf (.obj fs)) := by
    simp only [expandStep, hlookup, hmapping, bind, Except.bind, argsOf]
  have hsteps : mappedSteps m (.str name) (argsOf (.obj fs)) =
      (mergeArgs [] (argsOf (.obj fs))).map fun args => [stepOf (.str verb) args] := by
    simp only [mappedSteps, h.single, requireCanonical_of_mem h.canonical, h.noDefaults, bind,
      Except.bind]
    cases mergeArgs [] (argsOf (.obj fs)) <;> rfl
  rw [hmapped, expandMapped, hcheck, hsteps, h.single]
  cases mergeArgs [] (argsOf (.obj fs)) with
  | error err => rfl
  | ok args =>
    simp only [Except.map, bind, Except.bind, mapM_cons, mapM_nil, renamed]
    cases annotate (stepOf (.str verb) args) ⟨.str name, .str verb, .str m.overlay,
      .str m.version, .str "pass"⟩ <;> rfl

theorem expandStep_of_renames (h : Renames table options name verb m)
    (hverb : fs.get? "verb" = some (.str name)) (hargs : argsOf (.obj fs) = .obj args)
    (hnodup : args.keys.Nodup) : expandStep table options (.obj fs) =
      .ok ⟨[.obj ((madeAnew verb args).merge (renamed m name verb).fields)],
        [⟨renamed m name verb, .null⟩], []⟩ := by
  have hmerge : merge [] args = args := merge_eq_append hnodup fun _ _ => rfl
  rw [expandStep_eq_of_renames h hverb, hargs, mergeArgs, hmerge]
  change (annotate (.obj (madeAnew verb args)) _ >>= _) = _
  rw [annotate_of_args rfl]
  rfl

theorem exists_error_of_renames (h : Renames table options name verb m)
    (hverb : fs.get? "verb" = some (.str name)) (hargs : ¬(argsOf (.obj fs)).isObj) :
    ∃ err, expandStep table options (.obj fs) = .error err := by
  rw [expandStep_eq_of_renames h hverb]
  unfold mergeArgs
  split
  · rename_i heq
    exact absurd (by rw [heq]; rfl) hargs
  · exact ⟨_, rfl⟩

/-! ### Inside the step -/

variable {x : Value}

theorem insideArgs_congr (f : Expander) {y : Value} (hverb : x.field "verb" = y.field "verb")
    (hargs : argsOf x = argsOf y)
    (hblock : isLoop x → blockOf x (argsOf x) = blockOf y (argsOf y)) :
    insideArgs f x = insideArgs f y := by
  have hchoice : choiceArgs f x = choiceArgs f y := by
    rw [choiceArgs, choiceArgs, isChoice, isChoice, hverb, hargs]
  have hisLoop : isLoop x = isLoop y := by rw [isLoop, isLoop, hverb]
  rw [insideArgs, insideArgs, hchoice]
  cases ha : choiceArgs f y with
  | error err => rfl
  | ok choice =>
    have hloop : loopArgs f x choice.1 = loopArgs f y choice.1 := by
      rw [loopArgs, loopArgs, ← hisLoop]
      by_cases hl : isLoop x = true
      · -- the choice before it has not touched the block
        have hsame : choice.1.field "block" = (argsOf y).field "block" :=
          (writes_choiceArgs ha).field (by decide)
        rw [if_pos hl, if_pos hl, expandLoop, expandLoop, blockOf_congr (hsame.trans
          (congrArg (·.field "block") hargs.symm)), blockOf_congr hsame, hblock hl]
      · rw [if_neg hl, if_neg hl]
    simp only [bind, Except.bind, hloop]

variable {r : Warned Value} {f : Expander}

theorem block_of_insideArgs (hloop : isLoop x)
    (hargs : (argsOf x).isObj) (h : insideArgs f x = .ok r) :
    (∀ fs, blockOf x (argsOf x) = .obj fs → (r.1.field "block").isObj) ∧
      (blockOf x (argsOf x) = .null → r.1.field "block" = (argsOf x).field "block") := by
  rcases of_bind_ok h with ⟨choice, hchoice, h⟩
  rcases of_bind_ok h with ⟨loop, hloopArgs, h⟩
  rcases of_bind_ok h with ⟨plain, hplain, h⟩
  cases h
  have hsame : choice.1.field "block" = (argsOf x).field "block" :=
    (writes_choiceArgs hchoice).field (by decide)
  have hobj : choice.1.isObj := (writes_choiceArgs hchoice).isObj_eq.trans hargs
  rw [(writes_plainArgs hplain).field (by decide)]
  rw [loopArgs, if_pos hloop, expandLoop, blockOf_congr hsame] at hloopArgs
  refine ⟨?_, ?_⟩
  · intro fs hblock
    rw [hblock] at hloopArgs
    rcases of_bind_ok hloopArgs with ⟨_, _, hloopArgs⟩
    rcases of_bind_ok hloopArgs with ⟨_, _, hloopArgs⟩
    cases hloopArgs
    rw [field_setField_self hobj]
    rfl
  · intro hblock
    rw [hblock] at hloopArgs
    cases hloopArgs
    exact hsame

/-! ### What comes out -/

variable {name : String}

/-- The content of a step that was expanded: its arguments, and what it had beside them
    except for the block of a loop. -/
theorem field?_expanded (hverb : gs.get? "verb" = some (.str verb)) (l : Lineage) (args : Value) (hname : name ∉ Lineage.names) :
    ((withoutBlock (.obj (gs.merge l.fields))).setField "args" args).field? name =
      if name = "args" then some args
      else if verb = "Repeat" ∧ name = "block" then none else gs.get? name := by
  have hisLoop : isLoop (.obj (gs.merge l.fields)) = (verb == "Repeat") := by
    simp only [isLoop, field, field?]
    rw [l.get?_merge (by decide), hverb]
    rfl
  -- the arguments are written last, after the block of a loop was taken away
  by_cases hargs : name = "args"
  · subst hargs
    rw [if_pos rfl, withoutBlock]
    split <;> exact get?_put_self _ _ _
  · rw [if_neg hargs, field?_setField_of_ne _ (Ne.symm hargs), withoutBlock, hisLoop]
    by_cases hrepeat : verb = "Repeat"
    · rw [if_pos (beq_iff_eq.mpr hrepeat)]
      change get? (erase _ "block") name = _
      by_cases hblock : name = "block"
      · rw [if_pos ⟨hrepeat, hblock⟩, hblock, get?_erase_self]
      · rw [if_neg (fun h => hblock h.2), get?_erase_of_ne _ (Ne.symm hblock), l.get?_merge hname]
    · rw [if_neg (fun h => hrepeat (beq_iff_eq.mp h)), if_neg (fun h => hrepeat h.1)]
      exact l.get?_merge hname gs

theorem expandModule_flowOf (step : Value) : expandModule table options (flowOf step) =
      (expandList table options depthLimit [step]).map fun r =>
        (.obj [("flow", .list r.1)], r.2) := by
  unfold expandModule expandFlow
  generalize depthLimit = depth
  change (expandList table options depth [step] >>= _) = _
  cases expandList table options depth [step] <;> rfl

variable {step : Value} {origins : List Origin}

theorem expandList_of_expandStep
    (h : expandStep table options step = .ok ⟨[x], origins, []⟩) (depth : Nat) :
    expandList table options (depth + 1) [step] =
      (insideArgs (expandList table options depth) x).map fun r =>
        ([(withoutBlock x).setField "args" r.1], r.2) := by
  rw [expandList, expandSteps_singleton, h]
  change (expandEach _ [x] >>= _) = _
  rw [expandEach, expandInside_eq_insideArgs]
  cases insideArgs (expandList table options depth) x with
  | error err => rfl
  | ok r =>
    change Except.ok (_, [] ++ (r.2 ++ [])) = _
    rw [append_nil]
    rfl

/-- A module with one step, given what the step becomes: what is inside it is expanded. -/
def expandedFlow (table : Table) (options : Options) (step : Value) : Except Error (Warned Value) :=
  (insideArgs (expandList table options (depthLimit - 1)) step).map fun r =>
    (flowOf ((withoutBlock step).setField "args" r.1), r.2)

theorem exists_of_expandedFlow {warnings : List String}
    (h : expandedFlow table options step = .ok (flowOf x, warnings)) :
    ∃ r, insideArgs (expandList table options (depthLimit - 1)) step = .ok r ∧
      x = (withoutBlock step).setField "args" r.1 := by
  rw [expandedFlow] at h
  cases hr : insideArgs (expandList table options (depthLimit - 1)) step with
  | error err =>
    rw [hr] at h
    cases h
  | ok r =>
    rw [hr] at h
    cases h
    exact ⟨r, rfl, rfl⟩

theorem expandModule_of_expandStep (h : expandStep table options step = .ok ⟨[x], origins, []⟩) :
    expandModule table options (flowOf step) = expandedFlow table options x := by
  rw [expandModule_flowOf]
  change Except.map _ (expandList table options (depthLimit - 1 + 1) [step]) = _
  rw [expandList_of_expandStep h, expandedFlow]
  cases insideArgs (expandList table options (depthLimit - 1)) x <;> rfl

theorem expandModule_of_error {err : Error} (h : expandStep table options step = .error err) :
    expandModule table options (flowOf step) = .error err := by
  rw [expandModule_flowOf]
  change Except.map _ (expandList table options (depthLimit - 1 + 1) [step]) = _
  rw [expandList, expandSteps_singleton, h]
  rfl

/-! ### The two ways compared -/

theorem get?_wentOn_verb : (wentOn fs verb args).get? "verb" = some (.str verb) := by
  rw [wentOn, get?_put_of_ne _ (by decide), get?_put_self]

theorem get?_wentOn_of_ne (hverb : "verb" ≠ name) (hargs : "args" ≠ name) :
    (wentOn fs verb args).get? name = fs.get? name := by
  rw [wentOn, get?_put_of_ne _ hargs, get?_put_of_ne _ hverb]

theorem get?_madeAnew_of_ne (hverb : "verb" ≠ name) (hargs : "args" ≠ name) :
    (madeAnew verb args).get? name = none := by
  simp only [madeAnew, get?, beq_iff_eq, if_neg hverb, if_neg hargs]

variable {l l' : Lineage}

theorem argsOf_madeAnew : argsOf (.obj ((madeAnew verb args).merge l.fields)) = .obj args :=
  argsOf_of_get? (l.get?_merge (by decide) _)

theorem argsOf_wentOn : argsOf (.obj ((wentOn fs verb args).merge l.fields)) = .obj args :=
  argsOf_of_get? ((l.get?_merge (by decide) _).trans (get?_put_self _ _ _))

theorem verb_madeAnew :
    (Value.obj ((madeAnew verb args).merge l.fields)).field "verb" = .str verb :=
  field_merge _ _ (by decide)

theorem verb_wentOn :
    (Value.obj ((wentOn fs verb args).merge l.fields)).field "verb" = .str verb := by
  rw [field_merge _ _ (by decide), field, field?, get?_wentOn_verb]
  rfl

theorem blockOf_madeAnew (given : Value) :
    blockOf (.obj ((madeAnew verb args).merge l.fields)) given = given.field "block" := by
  have hblock : (obj ((madeAnew verb args).merge l.fields)).field "block" = .null :=
    field_merge _ _ (by decide)
  rw [blockOf, hblock]
  cases given.field "block" <;> rfl

theorem blockOf_wentOn (given : Value) :
    blockOf (.obj ((wentOn fs verb args).merge l.fields)) given = blockOf (.obj fs) given := by
  have hblock : (obj ((wentOn fs verb args).merge l.fields)).field "block" =
      (obj fs).field "block" := by
    rw [field_merge _ _ (by decide), field, field?, get?_wentOn_of_ne (by decide) (by decide)]
    rfl
  rw [blockOf, blockOf, hblock]

theorem isLoop_of_verb (hverb : step.field "verb" = .str verb) :
    isLoop step ↔ verb = "Repeat" := by
  rw [isLoop, hverb]
  exact beq_iff_eq

theorem insideArgs_madeAnew (f : Expander)
    (hblock : verb = "Repeat" → blockOf (.obj fs) (.obj args) = (Value.obj args).field "block") :
    insideArgs f (.obj ((madeAnew verb args).merge l.fields)) =
      insideArgs f (.obj ((wentOn fs verb args).merge l'.fields)) := by
  refine insideArgs_congr f (verb_madeAnew.trans verb_wentOn.symm)
    (argsOf_madeAnew.trans argsOf_wentOn.symm) ?_
  intro hloop
  rw [argsOf_madeAnew, argsOf_wentOn, blockOf_madeAnew, blockOf_wentOn]
  exact (hblock ((isLoop_of_verb verb_madeAnew).mp hloop)).symm

theorem insideArgs_ne_madeAnew {v : Warned Value} (hrepeat : verb = "Repeat")
    (hblock : blockOf (.obj fs) (.obj args) ≠ (Value.obj args).field "block")
    (hr : insideArgs f (.obj ((madeAnew verb args).merge l.fields)) = .ok r)
    (hv : insideArgs f (.obj ((wentOn fs verb args).merge l'.fields)) = .ok v) : r.1 ≠ v.1 := by
  rcases blockOf_cases (.obj fs) (.obj args) with hsame | ⟨hnull, gs, hgs⟩
  · exact absurd hsame hblock
  · -- there is no block among the arguments, and one beside them
    have hrnull : r.1.field "block" = .null := by
      have h := (block_of_insideArgs ((isLoop_of_verb verb_madeAnew).mpr hrepeat)
        (by rw [argsOf_madeAnew]; rfl) hr).2
      rw [argsOf_madeAnew, blockOf_madeAnew] at h
      exact (h hnull).trans hnull
    have hvobj : (v.1.field "block").isObj := by
      refine (block_of_insideArgs ((isLoop_of_verb verb_wentOn).mpr hrepeat)
        (by rw [argsOf_wentOn]; rfl) hv).1 gs ?_
      rw [argsOf_wentOn, blockOf_wentOn, hgs]
    intro heq
    rw [← heq, hrnull] at hvobj
    cases hvobj

theorem field?_madeAnew_eq_iff (a b : Value) (hnames : name ∉ Lineage.names) :
    ((withoutBlock (.obj ((madeAnew verb args).merge l.fields))).setField "args" a).field? name =
        ((withoutBlock (.obj ((wentOn fs verb args).merge l'.fields))).setField "args" b).field?
          name ↔ if name = "args" then a = b
      else name = "verb" ∨ (verb = "Repeat" ∧ name = "block") ∨ fs.get? name = none := by
  have hanew : (madeAnew verb args).get? "verb" = some (.str verb) := rfl
  rw [field?_expanded hanew _ _ hnames, field?_expanded get?_wentOn_verb _ _ hnames]
  by_cases hargs : name = "args"
  · simp only [if_pos hargs, Option.some.injEq]
  · simp only [if_neg hargs]
    by_cases hblock : verb = "Repeat" ∧ name = "block"
    · rw [if_pos hblock, if_pos hblock]
      exact iff_of_true rfl (.inr (.inl hblock))
    · rw [if_neg hblock, if_neg hblock, or_iff_right hblock]
      by_cases hverb : name = "verb"
      · simp only [hverb, hanew, get?_wentOn_verb, true_or]
      · rw [get?_madeAnew_of_ne (Ne.symm hverb) (Ne.symm hargs),
          get?_wentOn_of_ne (Ne.symm hverb) (Ne.symm hargs), or_iff_right hverb]
        exact eq_comm

theorem sameContent_madeAnew_iff (a b : Value) :
    SameContent ((withoutBlock (.obj ((madeAnew verb args).merge l.fields))).setField "args" a)
        ((withoutBlock (.obj ((wentOn fs verb args).merge l'.fields))).setField "args" b) ↔
      a = b ∧ ∀ name, (Value.obj fs).hasField name →
        name ∈ "verb" :: "args" :: Lineage.names ∨ (verb = "Repeat" ∧ name = "block") := by
  constructor
  · intro h
    refine ⟨?_, fun name hhas => ?_⟩
    · have hargs := (field?_madeAnew_eq_iff a b (by decide)).mp (h "args" (by decide))
      rwa [if_pos rfl] at hargs
    · by_cases hnames : name ∈ "args" :: Lineage.names
      · exact .inl (mem_cons_of_mem _ hnames)
      · rw [mem_cons, not_or] at hnames
        have hfield := (field?_madeAnew_eq_iff a b hnames.2).mp (h name hnames.2)
        rw [if_neg hnames.1] at hfield
        rcases hfield with hverb | hblock | hnone
        · exact .inl (hverb ▸ mem_cons_self)
        · exact .inr hblock
        · rw [hasField, field?, hnone] at hhas
          cases hhas
  · rintro ⟨rfl, hfields⟩ name hnames
    refine (field?_madeAnew_eq_iff a a hnames).mpr ?_
    by_cases hargs : name = "args"
    · rw [if_pos hargs]
    · rw [if_neg hargs]
      cases hget : fs.get? name with
      | none => exact .inr (.inr rfl)
      | some v =>
        have hhas : (obj fs).hasField name := by
          rw [hasField, field?, hget]
          rfl
        rcases hfields name hhas with hmem | hblock
        · rw [mem_cons, mem_cons] at hmem
          exact .inl (hmem.resolve_right (not_or.mpr ⟨hargs, hnames⟩))
        · exact .inr (.inl hblock)

theorem keys_nodup_of_argsOf (hnodup : ∀ args : Fields Value,
      (Value.obj fs).field "args" = .obj args → args.keys.Nodup)
    (hargs : argsOf (.obj fs) = .obj args) : args.keys.Nodup := by
  rw [argsOf, orElse] at hargs
  split at hargs
  · exact hnodup args hargs
  · cases hargs
    exact nodup_nil

theorem argsOf_put_verb (fs : Fields Value) (v : Value) :
    argsOf (.obj (fs.put "verb" v)) = argsOf (.obj fs) := by
  rw [argsOf, argsOf, field, field, field?, field?, get?_put_of_ne _ (by decide)]

theorem expandModule_of_renames (h : Renames table options name verb m)
    (hverb : fs.get? "verb" = some (.str name)) (hargs : argsOf (.obj fs) = .obj args)
    (hnodup : args.keys.Nodup) : expandModule table options (flowOf (.obj fs)) =
      expandedFlow table options (.obj ((madeAnew verb args).merge (renamed m name verb).fields)) :=
  expandModule_of_expandStep (expandStep_of_renames h hverb hargs hnodup)

theorem expandModule_of_canonical (hcanonical : verb ∈ canonicalVerbs)
    (hunmapped : table.get? verb = none) (hargs : (argsOf (.obj fs)).toFields = .ok args) :
    expandModule table options (flowOf (.obj (fs.put "verb" (.str verb)))) =
      expandedFlow table options (.obj ((wentOn fs verb args).merge (passedOn verb).fields)) := by
  have hstep : expandStep table options (.obj (fs.put "verb" (.str verb))) = _ :=
    expandStep_of_canonical (get?_put_self fs "verb" _) hcanonical hunmapped
  rw [argsOf_put_verb, hargs] at hstep
  exact expandModule_of_expandStep hstep

theorem alike_of_bare (h : Renames table options name verb m)
    (hverb : fs.get? "verb" = some (.str name))
    (hnodup : ∀ args : Fields Value, (Value.obj fs).field "args" = .obj args → args.keys.Nodup)
    (hbare : Bare (.obj fs) verb) : Alike (expandModule table options (flowOf (.obj fs)))
      (expandModule table options (flowOf (.obj (fs.put "verb" (.str verb))))) := by
  rcases exists_of_isObj hbare.args with ⟨args, hargs⟩
  have hblock := hbare.block
  rw [hargs] at hblock
  rw [expandModule_of_renames h hverb hargs (keys_nodup_of_argsOf hnodup hargs),
    expandModule_of_canonical h.canonical h.unmapped (by rw [hargs]; rfl), expandedFlow,
    expandedFlow, insideArgs_madeAnew _ hblock]
  cases insideArgs (expandList table options (depthLimit - 1))
      (.obj ((wentOn fs verb args).merge (passedOn verb).fields)) with
  | error err => exact .inl ⟨err, rfl, rfl⟩
  | ok r =>
    exact .inr ⟨_, _, r.2, rfl, rfl, (sameContent_madeAnew_iff r.1 r.1).mpr ⟨rfl, hbare.fields⟩⟩

theorem bare_of_alike (h : Renames table options name verb m)
    (hverb : fs.get? "verb" = some (.str name))
    (hnodup : ∀ args : Fields Value, (Value.obj fs).field "args" = .obj args → args.keys.Nodup)
    (hr : expandModule table options (flowOf (.obj (fs.put "verb" (.str verb)))) = .ok r)
    (halike : Alike (expandModule table options (flowOf (.obj fs)))
      (expandModule table options (flowOf (.obj (fs.put "verb" (.str verb)))))) :
    Bare (.obj fs) verb := by
  rcases halike with ⟨err, _, herr⟩ | ⟨x, y, warnings, hx, hy, hsame⟩
  · rw [hr] at herr
    cases herr
  · have hobj : (argsOf (.obj fs)).isObj := by
      -- a list of pairs is refused under the other name
      by_contra hnot
      rcases exists_error_of_renames h hverb hnot with ⟨err, herr⟩
      rw [expandModule_of_error herr] at hx
      cases hx
    rcases exists_of_isObj hobj with ⟨args, hargs⟩
    rw [expandModule_of_renames h hverb hargs (keys_nodup_of_argsOf hnodup hargs)] at hx
    rw [expandModule_of_canonical h.canonical h.unmapped (by rw [hargs]; rfl)] at hy
    rcases exists_of_expandedFlow hx with ⟨a, hanew, rfl⟩
    rcases exists_of_expandedFlow hy with ⟨b, hwhole, rfl⟩
    rcases (sameContent_madeAnew_iff a.1 b.1).mp hsame with ⟨heq, hfields⟩
    -- the block of a loop does not show in the fields that are left, but in the arguments
    refine ⟨hobj, hfields, fun hrepeat => ?_⟩
    rw [hargs]
    by_contra hblock
    exact insideArgs_ne_madeAnew hrepeat hblock hanew hwhole heq

/-- A verb under another name is transparent for bare steps, and for no others: of a bare
    step both names make the same, and of any other step that can be expanded under the
    verb's own name they do not. -/
theorem renamed_transparent_iff (h : Renames table options name verb m) (step : Value)
    (hverb : step.field "verb" = .str name)
    (hnodup : ∀ args : Fields Value, step.field "args" = .obj args → args.keys.Nodup) :
    let renamed := expandModule table options (flowOf step)
    let plain := expandModule table options (flowOf (step.setField "verb" (.str verb)))
    (Bare step verb → Alike renamed plain) ∧
      ∀ r, plain = .ok r → (Alike renamed plain ↔ Bare step verb) := by
  intro renamed plain
  cases step with
  | obj fs =>
    have hget : Fields.get? fs "verb" = some (.str name) :=
      field?_of_field hverb fun h => Value.noConfusion h
    exact ⟨alike_of_bare h hget hnodup, fun r hr =>
      ⟨bare_of_alike h hget hnodup hr, alike_of_bare h hget hnodup⟩⟩
  | _ => cases hverb

/-- A pack that calls a loop by another name. -/
def loopMapping : Mapping :=
  ⟨"loops", "1.0.0", "Loop", .str "Repeat", .obj [("mappedVerb", .str "Repeat")], []⟩

def blockBeside : Value := .obj [("verb", .str "Loop"), ("args", .obj [("iterator", .str "i")]),
    ("block", .list [.obj [("verb", .str "Show")]])]

def blockAmong : Value := .obj [("verb", .str "Loop"),
    ("args", .obj [("iterator", .str "i"), ("block", .list [.obj [("verb", .str "Show")]])])]

theorem bare_blockAmong : Bare blockAmong "Repeat" := by
  refine ⟨rfl, ?_, fun _ => rfl⟩
  intro name hname
  left
  by_contra hnot
  rw [mem_cons, mem_cons, not_or, not_or] at hnot
  simp only [hasField, blockAmong, field?, get?, beq_iff_eq,
    if_neg (Ne.symm hnot.1), if_neg (Ne.symm hnot.2.1)] at hname
  cases hname

/-- Under the other name the block beside the arguments is lost, the one among them is not. -/
theorem renamed_transparent_iff_loop :
    ¬Alike (expandModule [("Loop", loopMapping)] {} (flowOf blockBeside))
        (expandModule [("Loop", loopMapping)] {}
          (flowOf (blockBeside.setField "verb" (.str "Repeat")))) ∧
      Alike (expandModule [("Loop", loopMapping)] {} (flowOf blockAmong))
        (expandModule [("Loop", loopMapping)] {}
          (flowOf (blockAmong.setField "verb" (.str "Repeat")))) := by
  have hrenames : Renames [("Loop", loopMapping)] {} "Loop" "Repeat" loopMapping :=
    ⟨rfl, rfl, by decide, rfl, rfl, rfl⟩
  have hbeside := renamed_transparent_iff hrenames blockBeside rfl
    (fun args h => by cases h; decide)
  have hamong := renamed_transparent_iff hrenames blockAmong rfl
    (fun args h => by cases h; decide)
  refine ⟨fun halike => ?_, hamong.1 bare_blockAmong⟩
  have hblock := ((hbeside.2 _ rfl).mp halike).block rfl
  cases hblock

end Overlay

end Loom
