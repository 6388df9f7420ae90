import Loom.Proofs.Inside

/-!
# Expanding Twice

A module that was expanded can be expanded again, and then nothing changes but the lineage
of its steps. This is so for every table that leaves the seven verbs alone.

The first time puts every step into a form that the second time leaves alone: its verb is
not mapped, its arguments are an object, the block of a loop is among them, and the lists
inside them are such that they too change in their lineage only. The last part is by
induction on the depth: `Settles f xs` says that `f` gives back `xs` up to lineage, and
expansion to any depth is steady, it gives back what it gave.

What "up to lineage" means is computed. A value in a module has a role, and lineage is taken
out of what has the role of a step and of nothing else. An author may well use the same
names among the arguments or in a branch.
-/

namespace Loom.Overlay

open Value Fields

variable {v m : Value} {name : String} {r : Warned Value}

/-! ### Taking lineage out -/

/-- What a value is in a module, as far as there may be steps in it. Which arguments hold
    steps depends on whether they are those of a choice or of a loop. -/
inductive Role where
  | steps
  | step
  | args (choice loop : Bool)
  | branches
  /-- A branch or a block. -/
  | holder
  | other

namespace Role

def ofItem : Role → Role
  | steps => step
  | branches => holder
  | _ => other

def ofField (role : Role) (verb : Value) (name : String) : Role := match role with
  | step => if name = "args" then args (verb.isText "Choose") (verb.isText "Repeat") else other
  | args choice loop =>
    if name = "steps" then steps
    else if name = "branches" && choice then branches
    else if name = "block" && loop then holder
    else other
  | holder => if name = "steps" then steps else other
  | _ => other

/-- Whether a field tells the lineage of a step. -/
def drops : Role → String → Bool
  | step, name => Lineage.names.contains name
  | _, _ => false

mutual

/-- A value without the lineage of the steps in it. -/
def unmark (role : Role) : Value → Value
  | .list xs => .list (unmarkItems role.ofItem xs)
  | .obj fs => .obj (unmarkFields role ((get? fs "verb").getD .null) fs)
  | v => v

def unmarkItems (role : Role) : List Value → List Value
  | [] => []
  | v :: vs => unmark role v :: unmarkItems role vs

def unmarkFields (role : Role) (verb : Value) : List (String × Value) → List (String × Value)
  | [] => []
  | (name, v) :: fs =>
    if role.drops name then unmarkFields role verb fs
    else (name, unmark (role.ofField verb name) v) :: unmarkFields role verb fs

end

variable {role : Role} {verb w : Value} {name : String}

theorem unmarkFields_put {fs : Fields Value} (hw : fs.get? name = some w)
    (hsame : (role.ofField verb name).unmark v = (role.ofField verb name).unmark w) :
    role.unmarkFields verb (fs.put name v) = role.unmarkFields verb fs := by
  induction fs with
  | nil => cases hw
  | cons f fs ih =>
    rcases f with ⟨key, u⟩
    by_cases hkey : (key == name) = true
    · rw [get?, if_pos hkey, Option.some.injEq] at hw
      subst hw
      rw [put, if_pos hkey, unmarkFields, unmarkFields, eq_of_beq hkey, hsame]
    · rw [get?, if_neg hkey] at hw
      rw [put, if_neg hkey, unmarkFields, unmarkFields, ih hw]

theorem unmarkFields_put_of_drops (hdrops : role.drops name) (fs : Fields Value)
    (v : Value) : role.unmarkFields verb (fs.put name v) = role.unmarkFields verb fs := by
  induction fs with
  | nil => simp only [put, unmarkFields, if_pos hdrops]
  | cons f fs ih =>
    rcases f with ⟨key, u⟩
    by_cases hkey : (key == name) = true
    · have hdrop : role.drops key := by rw [eq_of_beq hkey, hdrops]
      rw [put, if_pos hkey, unmarkFields, unmarkFields, if_pos hdrop, if_pos hdrop]
    · rw [put, if_neg hkey, unmarkFields, unmarkFields, ih]

theorem unmarkFields_merge (fs : Fields Value) (l : Lineage) :
    step.unmarkFields verb (fs.merge l.fields) = step.unmarkFields verb fs := by
  change step.unmarkFields verb (((((fs.put "rawVerb" l.rawVerb).put "mappedVerb" _).put
    "overlayDomain" _).put "overlayVersion" _).put "capabilityCheck" _) = _
  rw [unmarkFields_put_of_drops rfl, unmarkFields_put_of_drops rfl, unmarkFields_put_of_drops rfl,
    unmarkFields_put_of_drops rfl, unmarkFields_put_of_drops rfl]

theorem unmark_merge (fs : Fields Value) (l : Lineage) :
    step.unmark (.obj (fs.merge l.fields)) = step.unmark (.obj fs) := by
  rw [unmark, unmark, l.get?_merge (by decide), unmarkFields_merge]

theorem unmark_setField {u : Value} (hname : name ≠ "verb") (hw : u.field? name = some w)
    (hsame : (role.ofField (u.field "verb") name).unmark v =
      (role.ofField (u.field "verb") name).unmark w) :
    role.unmark (u.setField name v) = role.unmark u := by
  cases u with
  | obj fs =>
    change role.unmark (.obj (put fs name v)) = _
    rw [unmark, unmark, get?_put_of_ne _ hname]
    exact congrArg obj (unmarkFields_put hw hsame)
  | _ => cases hw

end Role

/-- The flow of a module without the lineage of its steps. -/
def unmarkFlow (m : Value) : Value := match flowPlace? m with
  | some (name, steps) => m.setField name (.list (Role.step.unmarkItems steps))
  | none => m

/-- A module, or one inside a wrapper, without the lineage of its steps. -/
def unmarkModule (m : Value) : Value :=
  if (m.field "module").isObj then m.setField "module" (unmarkFlow (m.field "module"))
  else unmarkFlow m

/-! ### The three places the second time -/

/-- Steps that an expansion gives back, up to lineage. -/
def Settles (f : Expander) (xs : List Value) : Prop :=
  ∃ r, f xs = .ok r ∧ Role.step.unmarkItems r.1 = Role.step.unmarkItems xs

/-- An expansion that gives back what it gave. -/
def Steady (f : Expander) : Prop := ∀ xs r, f xs = .ok r → Settles f r.1

section Places

variable {f : Expander} {step args b : Value} {r : Warned Value}

theorem HasSteps.again (h : HasSteps (Settles f) b) :
    b.lookup "steps" = .ok (b.field "steps") ∧ ∃ xs, stepsIn b = .ok xs ∧ ∃ r, f xs = .ok r ∧
      Role.holder.unmark (b.setField "steps" (.list r.1)) = Role.holder.unmark b := by
  rcases h with ⟨xs, hsteps, r, hr, hsame⟩
  cases b with
  | obj fs =>
    refine ⟨rfl, xs, ?_, r, hr, Role.unmark_setField (by decide) hsteps ?_⟩
    · rw [stepsIn, field, hsteps]
      exact items_list xs
    · change list (Role.step.unmarkItems r.1) = list (Role.step.unmarkItems xs)
      rw [hsame]
  | _ => cases hsteps

variable {bs : List Value}

theorem expandBranches_of_settled (h : ∀ b ∈ bs, HasSteps (Settles f) b) :
    ∃ r, expandBranches f bs = .ok r ∧
      Role.holder.unmarkItems r.1 = Role.holder.unmarkItems bs := by
  induction bs with
  | nil => exact ⟨([], []), rfl, rfl⟩
  | cons b bs ih =>
    rcases List.forall_mem_cons.mp h with ⟨hb, hbs⟩
    rcases hb.again with ⟨hlookup, xs, hxs, inner, hinner, hsame⟩
    rcases ih hbs with ⟨others, hothers, hrest⟩
    unfold stepsIn at hxs
    refine ⟨(b.setField "steps" (.list inner.1) :: others.1, inner.2 ++ others.2), ?_, ?_⟩
    · simp only [expandBranches, hlookup, hxs, hinner, hothers, bind, Except.bind]
      rfl
    · rw [Role.unmarkItems, Role.unmarkItems, hsame, hrest]

theorem choiceArgs_of_settled (h : Filled (Settles f) step (argsOf step)) :
    ∃ r, choiceArgs f step = .ok r ∧ (Role.args (isChoice step) (isLoop step)).unmark r.1 =
        (Role.args (isChoice step) (isLoop step)).unmark (argsOf step) := by
  unfold choiceArgs expandChoice
  cases hverb : isChoice step with
  | false => exact ⟨_, rfl, rfl⟩
  | true =>
    rw [if_pos rfl]
    split
    · rename_i bs hbs
      rcases expandBranches_of_settled (h.branches hverb bs hbs) with ⟨inner, hinner, hsame⟩
      refine ⟨(_, inner.2), by rw [hinner]; rfl, ?_⟩
      refine Role.unmark_setField (by decide)
        (field?_of_field hbs fun h => Value.noConfusion h) ?_
      change list (Role.holder.unmarkItems inner.1) = .list (Role.holder.unmarkItems bs)
      rw [hsame]
    · exact ⟨_, rfl, rfl⟩

theorem loopArgs_of_settled (hobj : isLoop step → step.field "block" = .null)
    (hblock : isLoop step → ∀ fs, args.field "block" = .obj fs → HasSteps (Settles f) (.obj fs))
    (hnoList : isLoop step → ∀ xs, args.field "block" ≠ .list xs) :
    ∃ r, loopArgs f step args = .ok r ∧ (Role.args (isChoice step) (isLoop step)).unmark r.1 =
        (Role.args (isChoice step) (isLoop step)).unmark args := by
  unfold loopArgs expandLoop
  cases hverb : isLoop step with
  | false => exact ⟨_, rfl, rfl⟩
  | true =>
    -- beside the arguments there is nothing left, so the block is among them
    have hamong : blockOf step args = args.field "block" := by
      rw [blockOf, hobj hverb]
      cases args.field "block" <;> rfl
    rw [if_pos rfl, hamong]
    split
    · rename_i fs hfs
      rcases (hblock hverb fs hfs).again with ⟨_, xs, hxs, inner, hinner, hsame⟩
      unfold stepsIn at hxs
      refine ⟨(_, inner.2), by simp only [hxs, hinner, bind, Except.bind]; rfl, ?_⟩
      refine Role.unmark_setField (by decide)
        (field?_of_field hfs fun h => Value.noConfusion h) ?_
      cases isChoice step <;> exact hsame
    · rename_i xs hxs
      exact absurd hxs (hnoList hverb xs)
    · exact ⟨_, rfl, rfl⟩

theorem plainArgs_of_settled (hsteps : ∀ xs, args.field "steps" = .list xs → Settles f xs)
    (choice loop : Bool) : ∃ r, plainArgs f args = .ok r ∧
      (Role.args choice loop).unmark r.1 = (Role.args choice loop).unmark args := by
  unfold plainArgs
  split
  · rename_i xs hxs
    rcases hsteps xs hxs with ⟨inner, hinner, hsame⟩
    refine ⟨(_, inner.2), by rw [hinner]; rfl, ?_⟩
    refine Role.unmark_setField (by decide) (field?_of_field hxs fun h => Value.noConfusion h) ?_
    change list (Role.step.unmarkItems inner.1) = .list (Role.step.unmarkItems xs)
    rw [hsame]
  · exact ⟨_, rfl, rfl⟩

theorem insideArgs_of_settled (h : Filled (Settles f) step (argsOf step))
    (hnone : isLoop step → step.field "block" = .null) : ∃ r, insideArgs f step = .ok r ∧
      (Role.args (isChoice step) (isLoop step)).unmark r.1 =
        (Role.args (isChoice step) (isLoop step)).unmark (argsOf step) := by
  rcases choiceArgs_of_settled h with ⟨choice, hchoice, hchoiceSame⟩
  have hblock : choice.1.field "block" = (argsOf step).field "block" :=
    (writes_choiceArgs hchoice).field (by decide)
  rcases loopArgs_of_settled hnone (by rw [hblock]; exact h.block)
    (by rw [hblock]; exact h.noList) with ⟨loop, hloop, hloopSame⟩
  have hsteps : loop.1.field "steps" = (argsOf step).field "steps" :=
    ((writes_loopArgs hloop).field (by decide)).trans ((writes_choiceArgs hchoice).field (by decide))
  rcases plainArgs_of_settled (by rw [hsteps]; exact h.steps) (isChoice step) (isLoop step) with
    ⟨plain, hplain, hplainSame⟩
  refine ⟨(plain.1, choice.2 ++ loop.2 ++ plain.2), ?_, ?_⟩
  · simp only [insideArgs, hchoice, hloop, hplain, bind, Except.bind]
    rfl
  · exact hplainSame.trans (hloopSame.trans hchoiceSame)

end Places

/-! ### Steps the second time -/

structure Settled (table : Table) (options : Options) (f : Expander) (step : Value) : Prop
    extends Ready table options step where
  inside : Filled (Settles f) step (argsOf step)
  noBlock : isLoop step → step.field? "block" = none

variable {table : Table} {options : Options} {f : Expander}

variable {step : Value} {e : Expansion}

def leftAsIs (verb : Value) : Lineage := ⟨verb, .null, .null, .null, .str "n/a"⟩

theorem expandStep_of_ready (htable : ∀ verb ∈ canonicalVerbs, table.get? verb = none)
    {gs args : Fields Value} (hready : Ready table options (.obj gs))
    (hargs : gs.get? "args" = some (.obj args)) :
    ∃ (l : Lineage) (origins : List Origin) (warnings : List String),
      expandStep table options (.obj gs) = .ok ⟨[.obj (gs.merge l.fields)], origins, warnings⟩ := by
  rcases hready.verb with ⟨verb, hmem, hverb⟩ | ⟨hmapping, hcanonical, hoption⟩
  · have hget := field?_of_field hverb fun h => Value.noConfusion h
    refine ⟨passedOn verb, [⟨passedOn verb, .str "canonical-pass-through"⟩], [], ?_⟩
    rw [expandStep_of_canonical hget hmem (htable verb hmem), argsOf_of_get? hargs]
    simp only [toFields, Except.map, put_of_get? hargs]
  · generalize hverb : (obj gs).field "verb" = verb at hmapping hcanonical
    have hlookup : (obj gs).lookup "verb" = .ok verb := congrArg Except.ok hverb
    refine ⟨leftAsIs verb, [⟨leftAsIs verb, .str "No overlay mapping; left as-is."⟩],
      ["Unknown verb: " ++ verb.display], ?_⟩
    simp only [expandStep, hlookup, hmapping, expandPlain, hcanonical, hoption,
      annotate_of_args hargs, bind, Except.bind]
    rfl

/-! ### Lists of steps the second time -/

theorem settled_of_expandInside (hf : Steady f) (hready : Ready table options step)
    (h : expandInside f step = .ok r) : Settled table options f r.1 := by
  obtain ⟨args, hargs⟩ := hready.args
  obtain ⟨hobj, hverb, hargs', hfilled, hnone⟩ :=
    filled_of_expandInside hf hready.isObj (by rw [argsOf_eq hargs]; rfl) h
  exact ⟨⟨hobj, hargs', by rw [hverb]; exact hready.verb⟩, hfilled, hnone⟩

theorem Settled.again (htable : ∀ verb ∈ canonicalVerbs, table.get? verb = none)
    (h : Settled table options f step) :
    ∃ e step', expandStep table options step = .ok e ∧ e.steps = [step'] ∧
      ∃ r, expandInside f step' = .ok r ∧ Role.step.unmark r.1 = Role.step.unmark step := by
  rcases exists_of_isObj h.isObj with ⟨gs, rfl⟩
  rcases h.args with ⟨args, hfield⟩
  have hargs := field?_of_field hfield fun h => Value.noConfusion h
  rcases expandStep_of_ready htable h.toReady hargs with ⟨l, origins, warnings, hstep⟩
  -- the new lineage touches neither the verb nor the arguments, so the step is still settled
  have hverb : (obj (gs.merge l.fields)).field "verb" = (obj gs).field "verb" :=
    field_merge gs l (by decide)
  have hargs' : (obj (gs.merge l.fields)).field? "args" = some (.obj args) :=
    (l.get?_merge (by decide) gs).trans hargs
  have hsettled : Filled (Settles f) (.obj (gs.merge l.fields)) (argsOf (.obj (gs.merge l.fields))) := by
    have hinside := h.inside
    rw [argsOf_of_get? hargs] at hinside
    rw [argsOf_of_get? hargs']
    exact hinside.of_verb hverb
  have hnone : isLoop (.obj (gs.merge l.fields)) →
      get? (gs.merge l.fields) "block" = none := by
    intro hloop
    rw [isLoop, hverb] at hloop
    exact (l.get?_merge (by decide) gs).trans (h.noBlock hloop)
  rcases insideArgs_of_settled hsettled (fun hloop => by
    rw [field, field?, hnone hloop]; rfl) with ⟨inner, hinner, hsame⟩
  -- the first time has moved the block, so there is none to take away
  have hwithout : withoutBlock (.obj (gs.merge l.fields)) = .obj (gs.merge l.fields) := by
    unfold withoutBlock
    split
    · rename_i hloop
      rw [dropField, erase_of_get?_eq_none (hnone hloop)]
    · rfl
  refine ⟨_, _, hstep, rfl, (_, inner.2), by rw [expandInside_eq_insideArgs, hinner]; rfl, ?_⟩
  rw [argsOf_of_get? hargs'] at hsame
  have hput : Role.step.unmark ((obj (gs.merge l.fields)).setField "args" inner.1) =
      Role.step.unmark (.obj (gs.merge l.fields)) := Role.unmark_setField (by decide) hargs' hsame
  rw [hwithout]
  exact hput.trans (Role.unmark_merge gs l)

theorem expandSteps_of_settled (htable : ∀ verb ∈ canonicalVerbs, table.get? verb = none)
    (h : ∀ step ∈ steps, Settled table options f step) :
    ∃ e, expandSteps table options steps = .ok e ∧ ∃ r, expandEach f e.steps = .ok r ∧
      Role.step.unmarkItems r.1 = Role.step.unmarkItems steps := by
  induction steps with
  | nil => exact ⟨.empty, rfl, ([], []), rfl, rfl⟩
  | cons step steps ih =>
    rcases List.forall_mem_cons.mp h with ⟨hstep, hsteps⟩
    rcases hstep.again htable with ⟨first, step', hfirst, hone, r, hr, hsame⟩
    rcases ih hsteps with ⟨others, hothers, rest, hrest, hrestSame⟩
    refine ⟨first.append others, by rw [expandSteps, hfirst, hothers]; rfl,
      (r.1 :: rest.1, r.2 ++ rest.2), ?_, ?_⟩
    · simp only [Expansion.append, hone, List.singleton_append, expandEach, hr, hrest, bind,
        Except.bind]
      rfl
    · rw [Role.unmarkItems, Role.unmarkItems, hsame, hrestSame]

theorem settled_of_expandEach (hf : Steady f)
    (hsteps : ∀ s ∈ steps, Ready table options s) {r : Warned (List Value)}
    (h : expandEach f steps = .ok r) : ∀ step ∈ r.1, Settled table options f step := by
  intro t ht
  rcases exists_of_expandEach h t ht with ⟨s, hs, warnings, hin⟩
  exact settled_of_expandInside hf (hsteps s hs) hin

/-- Expansion to any depth is steady. The lists inside the steps are expanded to one depth
    less, so they are given back by induction. -/
theorem steady_expandList (htable : ∀ verb ∈ canonicalVerbs, table.get? verb = none)
    (depth : Nat) : Steady (expandList table options depth) := by
  induction depth with
  | zero =>
    -- at depth zero nothing comes out
    intro xs r h
    cases h
  | succ depth ih =>
    intro xs r h
    rcases of_bind_ok h with ⟨e, he, h⟩
    rcases of_bind_ok h with ⟨each, heach, h⟩
    cases h
    have hsettled : ∀ step ∈ each.1, Settled table options (expandList table options depth) step :=
      settled_of_expandEach ih (ready_of_expandSteps he) heach
    rcases expandSteps_of_settled htable hsettled with ⟨e', he', r', hr', hsame⟩
    refine ⟨(r'.1, e'.warnings ++ r'.2), ?_, hsame⟩
    rw [expandList, he']
    simp only [hr', bind, Except.bind]
    rfl

/-! ### Modules the second time -/

theorem setField_setField (v : Value) (name : String) (a b : Value) :
    (v.setField name a).setField name b = v.setField name b := by
  cases v with
  | obj fs => exact congrArg obj (put_put fs name a b)
  | _ => rfl

theorem flowPlace?_cases (h : flowPlace? m = some (name, steps)) :
    (name = "flow" ∧ m.field "flow" = .list steps) ∨
      (name = "steps" ∧ m.field? "flow" = none ∧ m.field "steps" = .list steps) := by
  unfold flowPlace? at h
  split at h
  · rename_i xs hxs
    cases h
    exact .inl ⟨rfl, hxs⟩
  · split at h
    · rename_i xs hxs hnone
      cases h
      exact .inr ⟨rfl, Option.not_isSome_iff_eq_none.mp (Bool.eq_false_iff.mp hnone), hxs⟩
    · cases h

theorem flowPlace?_setField (hobj : m.isObj)
    (h : flowPlace? m = some (name, steps)) (xs : List Value) :
    flowPlace? (m.setField name (.list xs)) = some (name, xs) := by
  rcases flowPlace?_cases h with ⟨rfl, _⟩ | ⟨rfl, hflow, _⟩
  · rw [flowPlace?, field_setField_self hobj]
  · have hnone : (m.setField "steps" (.list xs)).field? "flow" = none :=
      (field?_setField_of_ne _ (by decide) _).trans hflow
    rw [flowPlace?, field_setField_self hobj, hasField, field, hnone]
    rfl

theorem expandFlow_twice (htable : ∀ verb ∈ canonicalVerbs, table.get? verb = none)
    (h : expandFlow table options m = .ok r) :
    r.1.isObj ∧ r.1.field "module" = m.field "module" ∧
      ∃ r', expandFlow table options r.1 = .ok r' ∧ unmarkFlow r'.1 = unmarkFlow r.1 := by
  have hobj := isObj_of_expandFlow h
  cases hplace : flowPlace? m with
  | none =>
    have hsame := h
    rw [expandFlow_eq hobj, hplace] at hsame
    cases hsame
    exact ⟨hobj, rfl, _, h, rfl⟩
  | some place =>
    rcases place with ⟨name, steps⟩
    rw [expandFlow_eq hobj, hplace] at h
    rcases of_bind_ok h with ⟨first, hlist, h⟩
    cases h
    rcases steady_expandList htable depthLimit steps first hlist with ⟨again, hagain, heq⟩
    have hset : (m.setField name (.list first.1)).isObj := (isObj_setField _ _ _).trans hobj
    have hfirst := flowPlace?_setField hobj hplace first.1
    -- a wrapper is recognized by this field, so it must not be the one that is written
    have hname : name ≠ "module" := by
      rcases flowPlace?_cases hplace with ⟨rfl, _⟩ | ⟨rfl, _⟩ <;> decide
    refine ⟨hset, field_setField_of_ne _ hname _,
      ((m.setField name (.list first.1)).setField name (.list again.1), again.2), ?_, ?_⟩
    · simp only [expandFlow_eq hset, hfirst, hagain]
      rfl
    · dsimp only
      rw [unmarkFlow, unmarkFlow, hfirst, flowPlace?_setField hset hfirst again.1]
      simp only [setField_setField, heq]

theorem unmarkModule_setField {inner : Value} (hobj : m.isObj)
    (hinner : inner.isObj) :
    unmarkModule (m.setField "module" inner) = m.setField "module" (unmarkFlow inner) := by
  rw [unmarkModule, field_setField_self hobj, if_pos hinner, setField_setField]

/-- A module that was expanded can be expanded again, and nothing changes but the lineage of
    its steps, provided that the table maps none of the seven verbs. -/
theorem expandModule_twice (htable : ∀ verb ∈ canonicalVerbs, table.get? verb = none) (m : Value)
    (r : Warned Value) (h : expandModule table options m = .ok r) :
    ∃ r', expandModule table options r.1 = .ok r' ∧ unmarkModule r'.1 = unmarkModule r.1 := by
  cases m with
  | null =>
    cases h
    exact ⟨_, rfl, rfl⟩
  | obj fs =>
    by_cases hinner : ((obj fs).field "module").isObj = true
    · rw [expandModule_of_wrapper rfl hinner] at h
      rcases of_bind_ok h with ⟨inner, hflow, h⟩
      cases h
      rcases expandFlow_twice htable hflow with ⟨hobj, _, again, hagain, hsame⟩
      rcases expandFlow_twice htable hagain with ⟨hagainObj, _⟩
      refine ⟨(((obj fs).setField "module" inner.1).setField "module" again.1, again.2), ?_, ?_⟩
      · have hfield : ((obj fs).setField "module" inner.1).field "module" = inner.1 :=
          field_setField_self rfl _ _
        rw [expandModule_of_wrapper rfl (by rw [hfield]; exact hobj), hfield, hagain]
        rfl
      · dsimp only
        rw [unmarkModule_setField rfl hobj, unmarkModule_setField rfl hagainObj,
          setField_setField, hsame]
    · rw [expandModule_of_not_wrapper rfl hinner] at h
      -- what was no wrapper the first time is none the second time, nor after it
      rcases expandFlow_twice htable h with ⟨hobj, hmodule, again, hagain, hsame⟩
      rcases expandFlow_twice htable hagain with ⟨_, hagainModule, _⟩
      rw [← hmodule] at hinner
      refine ⟨again, by rw [expandModule_of_not_wrapper hobj hinner, hagain], ?_⟩
      rw [unmarkModule, unmarkModule, hagainModule, if_neg hinner, if_neg hinner, hsame]
  | _ => cases h

/-- A loop with a block beside its arguments, and a choice. Inside them are a verb that
    stands for two and one that is not known. -/
def nestedModule : Value := .obj [("flow", .list
    [.obj [("verb", .str "Repeat"),
      ("block", .list [.obj [("verb", .str "Report")], .obj [("verb", .str "Dance")]])],
    .obj [("verb", .str "Choose"), ("args", .obj [("branches", .list
      [.obj [("rawVerb", .str "kept"), ("steps", .list [.obj [("verb", .str "Report")]])]])])]])]

/-- The second expansion forgets that two steps came from one, and nothing else. -/
theorem expandModule_twice_nestedModule : ∃ r, expandModule reportTable {} nestedModule = .ok r ∧
      ∃ r', expandModule reportTable {} r.1 = .ok r' ∧ unmarkModule r'.1 = unmarkModule r.1 := by
  have htable : ∀ verb ∈ canonicalVerbs, Fields.get? reportTable verb = none := by
    intro verb hverb
    simp only [canonicalVerbs, List.mem_cons, List.not_mem_nil, or_false] at hverb
    rcases hverb with rfl | rfl | rfl | rfl | rfl | rfl | rfl <;> rfl
  have hfirst : ∃ r, expandModule reportTable {} nestedModule = .ok r := ⟨_, rfl⟩
  rcases hfirst with ⟨r, hr⟩
  exact ⟨r, hr, expandModule_twice htable nestedModule r hr⟩

end Loom.Overlay
