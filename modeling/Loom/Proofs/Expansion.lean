import Loom.Overlay.Packs
import Loom.Proofs.Fields
import Mathlib.Data.List.Forall2

/-!
# Expansion Step by Step

A list of steps is expanded one step at a time, and every step that comes out says
which step it came from.

There are four ways in which a step is expanded: its verb is mapped to one verb, to
a list of verbs, to a pipeline, or not at all. What they have in common is said once, in
`exists_of_expandStep`: the step gives some steps, and all of them are marked with one
lineage that names the step's own verb. The rest follows from it and from the
equation for two lists put together.
-/

namespace Loom

open List Except Value Fields

def Lineage.names : List String :=
  ["rawVerb", "mappedVerb", "overlayDomain", "overlayVersion", "capabilityCheck"]

variable {name : String}

theorem Lineage.get?_merge (l : Lineage) (hname : name ∉ names)
    (fs : Fields Value) : (fs.merge l.fields).get? name = fs.get? name :=
  get?_merge_of_not_mem hname fs

def Lineage.Marks (l : Lineage) (step : Value) : Prop := ∀ f ∈ l.fields, step.field? f.1 = some f.2

namespace Overlay

variable {table : Table} {options : Options}

/-! ### One step after the other -/

theorem Expansion.append_assoc (a b c : Expansion) :
    (a.append b).append c = a.append (b.append c) := by
  simp only [append, List.append_assoc]

theorem Expansion.append_empty (e : Expansion) : e.append .empty = e := by
  simp only [append, empty, append_nil]

theorem expandSteps_append (a b : List Value) : expandSteps table options (a ++ b) = (do
      let x ← expandSteps table options a let y ← expandSteps table options b
      pure (x.append y)) := by
  induction a with
  | nil =>
    change expandSteps table options b = expandSteps table options b >>= _
    cases expandSteps table options b <;> rfl
  | cons step a ih =>
    rw [cons_append, expandSteps, expandSteps, ih]
    cases expandStep table options step with
    | error err => rfl
    | ok first =>
      cases expandSteps table options a with
      | error err => rfl
      | ok x =>
        cases expandSteps table options b with
        | error err => rfl
        | ok y => exact congrArg ok (Expansion.append_assoc first x y).symm

variable {e : Expansion}

theorem expandSteps_append_eq_ok_iff {a b : List Value} :
    expandSteps table options (a ++ b) = .ok e ↔
      ∃ x y, expandSteps table options a = .ok x ∧ expandSteps table options b = .ok y ∧
        e = x.append y := by
  rw [expandSteps_append]
  constructor
  · intro h
    obtain ⟨x, hx, h⟩ := of_bind_ok h
    obtain ⟨y, hy, h⟩ := of_bind_ok h
    exact ⟨x, y, hx, hy, (ok.inj h).symm⟩
  · rintro ⟨x, y, hx, hy, rfl⟩
    rw [hx, hy]
    rfl

theorem expandSteps_singleton (step : Value) :
    expandSteps table options [step] = expandStep table options step := by
  rw [expandSteps, expandSteps]
  cases expandStep table options step with
  | error err => rfl
  | ok e => exact congrArg ok e.append_empty

variable {steps : List Value}

theorem expandSteps_eq_error_iff {err : Error} : expandSteps table options steps = .error err ↔
      ∃ before step after, steps = before ++ step :: after ∧
        (∀ t ∈ before, ∃ e, expandSteps table options [t] = .ok e) ∧
        expandSteps table options [step] = .error err := by
  constructor
  · intro h
    induction steps with
    | nil => cases h
    | cons step rest ih =>
      cases hstep : expandStep table options step with
      | error err' =>
        rw [expandSteps, hstep] at h
        cases h
        exact ⟨[], step, rest, rfl, fun _ ht => absurd ht not_mem_nil,
          by rw [expandSteps_singleton, hstep]⟩
      | ok first =>
        have hrest : expandSteps table options rest = .error err := by
          rw [expandSteps, hstep] at h
          cases hr : expandSteps table options rest with
          | error err' => rw [hr] at h; cases h; rfl
          | ok e => rw [hr] at h; cases h
        obtain ⟨before, s, after, rfl, hbefore, hs⟩ := ih hrest
        refine ⟨step :: before, s, after, rfl, forall_mem_cons.mpr ⟨⟨first, ?_⟩, hbefore⟩, hs⟩
        rw [expandSteps_singleton, hstep]
  · rintro ⟨before, step, after, rfl, hbefore, hstep⟩
    induction before with
    | nil =>
      rw [expandSteps_singleton] at hstep
      rw [nil_append, expandSteps, hstep]
      rfl
    | cons t before ih =>
      obtain ⟨⟨e, ht⟩, hbefore⟩ := forall_mem_cons.mp hbefore
      rw [expandSteps_singleton] at ht
      rw [cons_append, expandSteps, ht, ih hbefore]
      rfl

/-! ### What a step gives -/

variable {v : Value}

theorem exists_of_lookup {w : Value} (h : v.lookup name = .ok w) :
    v.isObj ∧ w = v.field name := by
  cases v with
  | obj fs => exact ⟨rfl, (ok.inj h).symm⟩
  | _ => cases h

theorem exists_of_isCanonical (h : isCanonical v = .ok true) :
    ∃ verb ∈ canonicalVerbs, v = .str verb := by
  cases v with
  | str s => exact ⟨s, contains_iff_mem.mp (ok.inj h), rfl⟩
  | list _ | obj _ => cases h
  | _ => exact absurd (ok.inj h) Bool.false_ne_true

theorem exists_of_requireCanonical {u : Unit} (h : requireCanonical v = .ok u) :
    ∃ verb ∈ canonicalVerbs, v = .str verb := by
  obtain ⟨b, hb, h⟩ := of_bind_ok h
  cases b with
  | true => exact exists_of_isCanonical hb
  | false => cases h

variable {verb : String}

theorem isCanonical_of_mem (hverb : verb ∈ canonicalVerbs) : isCanonical (.str verb) = .ok true :=
  congrArg ok (contains_iff_mem.mpr hverb)

theorem requireCanonical_of_mem (hverb : verb ∈ canonicalVerbs) :
    requireCanonical (.str verb) = .ok () := by
  rw [requireCanonical, isCanonical_of_mem hverb]
  rfl

theorem exists_of_mappedSteps {m : Mapping} {raw args : Value} {given : List Value}
    (h : mappedSteps m raw args = .ok given) :
    ∀ s ∈ given, ∃ verb ∈ canonicalVerbs, ∃ args, s = stepOf (.str verb) args := by
  unfold mappedSteps at h
  split at h
  · dsimp only at h
    split at h
    · obtain ⟨stages, _, h⟩ := of_bind_ok h
      intro s hs
      obtain ⟨stage, _, hstage⟩ := exists_of_mapM_eq_ok h s hs
      unfold stageStep at hstage
      split at hstage
      · obtain ⟨_, hverb, hstage⟩ := of_bind_ok hstage
        obtain ⟨verb, hmem, hverb⟩ := exists_of_requireCanonical hverb
        obtain ⟨_, _, hstage⟩ := of_bind_ok hstage
        obtain ⟨args, _, hstage⟩ := of_bind_ok hstage
        exact ⟨verb, hmem, args, by rw [← hverb]; exact (ok.inj hstage).symm⟩
      · cases hstage
    · intro s hs
      obtain ⟨v, _, hv⟩ := exists_of_mapM_eq_ok h s hs
      obtain ⟨_, hverb, hv⟩ := of_bind_ok hv
      obtain ⟨verb, hmem, rfl⟩ := exists_of_requireCanonical hverb
      obtain ⟨fs, _, hv⟩ := of_bind_ok hv
      exact ⟨verb, hmem, .obj fs, (ok.inj hv).symm⟩
  · obtain ⟨_, hverb, h⟩ := of_bind_ok h
    obtain ⟨verb, hmem, hverb⟩ := exists_of_requireCanonical hverb
    obtain ⟨args, _, h⟩ := of_bind_ok h
    cases h
    exact forall_mem_singleton.mpr ⟨verb, hmem, args, by rw [hverb]⟩

theorem marks_annotate {given s : Value} {l : Lineage} (hobj : given.isObj)
    (h : annotate given l = .ok s) :
    l.Marks s ∧ s.isObj ∧ (∃ args, s.field "args" = .obj args) ∧
      s.field "verb" = given.field "verb" := by
  obtain ⟨args, _, h⟩ := of_bind_ok h
  have hkeys : ∀ {name : String}, name ∉ ["rawVerb", "mappedVerb", "overlayDomain",
      "overlayVersion", "capabilityCheck"] → name ∉ l.fields.keys := id
  cases given with
  | obj fs =>
    cases h
    refine ⟨fun f hf => ?_, rfl, ⟨args, ?_⟩, ?_⟩
    · have hnodup : l.fields.keys.Nodup :=
        (by decide : ["rawVerb", "mappedVerb", "overlayDomain", "overlayVersion",
          "capabilityCheck"].Nodup)
      exact get?_merge_of_mem hnodup hf _
    · simp only [field, field?]
      rw [get?_merge_of_not_mem (hkeys (by decide)), get?_put_self]
      rfl
    · simp only [field, field?]
      rw [get?_merge_of_not_mem (hkeys (by decide)), get?_put_of_ne _ (by decide)]
  | _ => cases hobj

/-- A step as expansion gives it: its arguments are an object, and its verb runs unless it is
    unknown and not refused. -/
structure Ready (table : Table) (options : Options) (step : Value) : Prop where
  isObj : step.isObj
  args : ∃ args, step.field "args" = .obj args
  verb : (∃ verb ∈ canonicalVerbs, step.field "verb" = .str verb) ∨
    mapping? table (step.field "verb") = .ok none ∧ isCanonical (step.field "verb") = .ok false ∧
      options.noUnknownVerbs = false

theorem exists_of_expandStep {step : Value} (h : expandStep table options step = .ok e) :
    ∃ (lineage : Lineage) (notes : Value), e.origins = [⟨lineage, notes⟩] ∧
      lineage.rawVerb = step.field "verb" ∧
      ∀ s ∈ e.steps, lineage.Marks s ∧ Ready table options s := by
  obtain ⟨raw, hraw, h⟩ := of_bind_ok h
  obtain ⟨hobj, rfl⟩ := exists_of_lookup hraw
  obtain ⟨mapping, hmapping, h⟩ := of_bind_ok h
  cases mapping with
  | some m =>
    obtain ⟨⟨status, warnings⟩, _, h⟩ := of_bind_ok h
    obtain ⟨given, hgiven, h⟩ := of_bind_ok h
    obtain ⟨steps, hsteps, h⟩ := of_bind_ok h
    cases h
    refine ⟨_, _, rfl, rfl, fun s hs => ?_⟩
    obtain ⟨g, hg, hannotate⟩ := exists_of_mapM_eq_ok hsteps s hs
    obtain ⟨verb, hmem, args, rfl⟩ := exists_of_mappedSteps hgiven g hg
    obtain ⟨hmarks, hsobj, hargs, hverb⟩ := marks_annotate rfl hannotate
    exact ⟨hmarks, hsobj, hargs, .inl ⟨verb, hmem, hverb⟩⟩
  | none =>
    obtain ⟨canonical, hcanonical, h⟩ := of_bind_ok h
    cases canonical with
    | true =>
      -- the verb runs as it is: the step itself goes on
      obtain ⟨verb, hmem, hverb⟩ := exists_of_isCanonical hcanonical
      obtain ⟨args, _, h⟩ := of_bind_ok h
      obtain ⟨s, hs, h⟩ := of_bind_ok h
      cases h
      have hgiven : ((step.setField "verb" (step.field "verb")).setField "args"
          (.obj args)).isObj := by
        rw [isObj_setField, isObj_setField, hobj]
      obtain ⟨hmarks, hsobj, hargs, hverb'⟩ := marks_annotate hgiven hs
      rw [field_setField_of_ne _ (by decide), field_setField_self hobj, hverb] at hverb'
      exact ⟨_, _, rfl, rfl,
        forall_mem_singleton.mpr ⟨hmarks, hsobj, hargs, .inl ⟨verb, hmem, hverb'⟩⟩⟩
    | false =>
      cases hoption : options.noUnknownVerbs with
      | true =>
        simp only [hoption] at h
        cases h
      | false =>
        simp only [hoption] at h
        obtain ⟨s, hs, h⟩ := of_bind_ok h
        cases h
        obtain ⟨hmarks, hsobj, hargs, hverb⟩ := marks_annotate hobj hs
        rw [← hverb] at hmapping hcanonical
        exact ⟨_, _, rfl, rfl, forall_mem_singleton.mpr
          ⟨hmarks, hsobj, hargs, .inr ⟨hmapping, hcanonical, hoption⟩⟩⟩

theorem ready_of_expandSteps (h : expandSteps table options steps = .ok e) :
    ∀ s ∈ e.steps, Ready table options s := by
  induction steps generalizing e with
  | nil =>
    cases h
    exact forall_mem_nil _
  | cons step rest ih =>
    obtain ⟨first, hfirst, h⟩ := of_bind_ok h
    obtain ⟨others, hothers, h⟩ := of_bind_ok h
    cases h
    obtain ⟨_, _, _, _, hgiven⟩ := exists_of_expandStep hfirst
    exact fun s hs => (mem_append.mp hs).elim (fun hs => (hgiven s hs).2) (ih hothers s)

/-! ### Parts -/

/-- What an expansion tells about one step: the steps it gave, under one origin that names
    its verb, and all of them with that lineage. -/
structure Gives (table : Table) (options : Options) (step : Value) (part : Origin × List Value) :
    Prop where
  alone : ∃ warnings, expandSteps table options [step] = .ok ⟨part.2, [part.1], warnings⟩
  rawVerb : part.1.lineage.rawVerb = step.field "verb"
  marks : ∀ s ∈ part.2, part.1.lineage.Marks s

theorem exists_parts (h : expandSteps table options steps = .ok e) :
    ∃ parts : List (Origin × List Value), List.Forall₂ (Gives table options) steps parts ∧
      e.origins = parts.map Prod.fst ∧ e.steps = parts.flatMap Prod.snd := by
  induction steps generalizing e with
  | nil =>
    cases h
    exact ⟨[], .nil, rfl, rfl⟩
  | cons step rest ih =>
    obtain ⟨first, hfirst, h⟩ := of_bind_ok h
    obtain ⟨others, hothers, h⟩ := of_bind_ok h
    cases h
    obtain ⟨parts, hparts, horigins, hsteps⟩ := ih hothers
    obtain ⟨lineage, notes, horigin, hverb, hgiven⟩ := exists_of_expandStep hfirst
    refine ⟨(⟨lineage, notes⟩, first.steps) :: parts,
      .cons ⟨⟨first.warnings, ?_⟩, hverb, ?_⟩ hparts, ?_, ?_⟩
    · rw [expandSteps_singleton, hfirst, ← horigin]
    · exact fun s hs => (hgiven s hs).1
    · rw [Expansion.append, horigin, horigins]
      rfl
    · rw [Expansion.append, hsteps]
      rfl

/-- Expansion is step-wise and can be traced back. Two lists put together are expanded one
    after the other; they fail as the first step that fails on its own; and the steps that
    come out fall into groups, one for each step and in order, that carry its lineage. -/
theorem expandSteps_stepwise (table : Table) (options : Options) (a b : List Value) :
    (∀ e, expandSteps table options (a ++ b) = .ok e ↔
      ∃ x y, expandSteps table options a = .ok x ∧ expandSteps table options b = .ok y ∧
        e.steps = x.steps ++ y.steps ∧ e.origins = x.origins ++ y.origins ∧
        e.warnings = x.warnings ++ y.warnings) ∧
    (∀ err, expandSteps table options (a ++ b) = .error err ↔
      ∃ before step after, a ++ b = before ++ step :: after ∧
        (∀ t ∈ before, ∃ e, expandSteps table options [t] = .ok e) ∧
        expandSteps table options [step] = .error err) ∧
    (∀ e, expandSteps table options (a ++ b) = .ok e →
      ∃ parts : List (Origin × List Value), List.Forall₂ (Gives table options) (a ++ b) parts ∧
        e.origins = parts.map Prod.fst ∧ e.steps = parts.flatMap Prod.snd) := by
  refine ⟨?_, fun err => expandSteps_eq_error_iff, fun e => exists_parts⟩
  rintro ⟨steps, origins, warnings⟩
  rw [expandSteps_append_eq_ok_iff]
  constructor
  · rintro ⟨x, y, hx, hy, he⟩
    cases he
    exact ⟨x, y, hx, hy, rfl, rfl, rfl⟩
  · rintro ⟨x, y, hx, hy, rfl, rfl, rfl⟩
    exact ⟨x, y, hx, hy, rfl⟩

/-- A verb that stands for two, one after the other. -/
def reportTable : Table := [("Report", ⟨"core", "0.1.0", "Report", .list [.str "Make", .str "Show"],
    .obj [("pipeline", .list
      [.obj [("Make", .obj [("op", .str "compose")])], .obj [("Show", .null)]])], []⟩)]

/-- One step gives two, the other only itself, and both are told apart. -/
theorem expandSteps_stepwise_report : ∃ e, expandSteps reportTable ⟨true, false, []⟩
        ([.obj [("verb", .str "Report")]] ++ [.obj [("verb", .str "Show")]]) = .ok e ∧
      e.steps.map (·.field "rawVerb") = [.str "Report", .str "Report", .str "Show"] ∧
      ∃ parts : List (Origin × List Value), List.Forall₂ (Gives reportTable ⟨true, false, []⟩)
          ([.obj [("verb", .str "Report")]] ++ [.obj [("verb", .str "Show")]]) parts ∧
        e.origins = parts.map Prod.fst ∧ e.steps = parts.flatMap Prod.snd :=
  ⟨_, rfl, rfl, (expandSteps_stepwise _ _ _ _).2.2 _ rfl⟩

end Overlay

end Loom
