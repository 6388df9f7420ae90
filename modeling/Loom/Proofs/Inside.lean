import Loom.Proofs.Expansion

/-!
# Steps Inside Steps

After a list of steps is expanded, the lists inside the steps that came out are. They are
in the branches of a choice, in the block of a loop, or among the arguments, and here
these places are named. What expansion does with a step depends on nothing but what it
does with these lists.
-/

namespace Loom.Overlay

open Value Fields

variable {name : String} {f : Expander} {args step : Value} {r : Warned Value}

abbrev Expander := List Value → Except Error (Warned (List Value))

def stepsIn (v : Value) : Except Error (List Value) := ((v.field "steps").orElse (.list [])).items

theorem items_list (xs : List Value) : (orElse (.list xs) (.list [])).items = .ok xs := by
  cases xs <;> rfl

def argsOf (step : Value) : Value := (step.field "args").orElse (.obj [])

def isChoice (step : Value) : Bool := (step.field "verb").isText "Choose"

def isLoop (step : Value) : Bool := (step.field "verb").isText "Repeat"

/-! ### A step that goes on whole -/

section GoesOn

variable {table : Table} {options : Options} {verb : String} {fs gs args : Fields Value}

theorem field?_of_field {v w : Value} (h : v.field name = w) (hw : w ≠ .null) :
    v.field? name = some w := by
  rw [field] at h
  cases hv : v.field? name with
  | none =>
    rw [hv] at h
    exact absurd h.symm hw
  | some u =>
    rw [hv] at h
    exact congrArg some h

theorem field_merge (gs : Fields Value) (l : Lineage) (hname : name ∉ Lineage.names) :
    (Value.obj (gs.merge l.fields)).field name = (Value.obj gs).field name := by
  rw [field, field?, l.get?_merge hname]
  rfl

theorem argsOf_eq {v : Value} (hargs : v.field "args" = .obj fs) : argsOf v = .obj fs := by
  rw [argsOf, hargs]
  cases fs <;> rfl

theorem argsOf_of_get? (hargs : gs.get? "args" = some (.obj args)) : argsOf (.obj gs) = .obj args :=
  argsOf_eq (congrArg (·.getD .null) hargs)

theorem annotate_of_args (hargs : gs.get? "args" = some (.obj args)) (l : Lineage) :
    annotate (.obj gs) l = .ok (.obj (gs.merge l.fields)) := by
  have hfields : (obj args).toFieldsOrNone = .ok args := by cases args <;> rfl
  simp only [annotate, field, field?, hargs, Option.getD_some, hfields]
  change Except.ok (obj (merge (gs.put "args" (.obj args)) l.fields)) = _
  rw [put_of_get? hargs]

def passedOn (verb : String) : Lineage := ⟨.str verb, .str verb, .null, .null, .str "n/a"⟩

theorem expandStep_of_canonical (hverb : fs.get? "verb" = some (.str verb))
    (hcanonical : verb ∈ canonicalVerbs) (hunmapped : table.get? verb = none) :
    expandStep table options (.obj fs) = (argsOf (.obj fs)).toFields.map fun args =>
      ⟨[.obj ((fs.put "args" (.obj args)).merge (passedOn verb).fields)],
        [⟨passedOn verb, .str "canonical-pass-through"⟩], []⟩ := by
  have hlookup : (obj fs).lookup "verb" = .ok (.str verb) := by
    rw [lookup, lookup?, hverb]
    rfl
  have hmapping : mapping? table (.str verb) = .ok none := congrArg Except.ok hunmapped
  have hplain : expandStep table options (.obj fs) =
      expandPlain options (.obj fs) (.str verb) (argsOf (.obj fs)) := by
    simp only [expandStep, hlookup, hmapping, bind, Except.bind, argsOf]
  rw [hplain, expandPlain, isCanonical_of_mem hcanonical]
  cases (argsOf (.obj fs)).toFields with
  | error err => rfl
  | ok args =>
    change (annotate (.obj ((fs.put "verb" (.str verb)).put "args" (.obj args)))
      (passedOn verb) >>= _) = _
    rw [put_of_get? hverb, annotate_of_args (get?_put_self fs "args" _)]
    rfl

end GoesOn

/-- A step has a list of steps inside it, in one of the places where expansion looks for
    them. -/
inductive Holds (step : Value) : List Value → Prop
  | branch {bs : List Value} {b : Value} {xs : List Value} (hverb : isChoice step)
      (hargs : (argsOf step).field "branches" = .list bs) (hb : b ∈ bs)
      (hxs : stepsIn b = .ok xs) : Holds step xs
  | block {fs : Fields Value} {xs : List Value} (hverb : isLoop step)
      (hblock : blockOf step (argsOf step) = .obj fs) (hxs : stepsIn (.obj fs) = .ok xs) :
      Holds step xs
  | items {xs : List Value} (hverb : isLoop step)
      (hblock : blockOf step (argsOf step) = .list xs) : Holds step xs
  | args {xs : List Value} (hargs : (argsOf step).field "steps" = .list xs) : Holds step xs

/-! ### The three places -/

def choiceArgs (f : Expander) (step : Value) : Except Error (Warned Value) :=
  if isChoice step then expandChoice f (argsOf step) else .ok (argsOf step, [])

def loopArgs (f : Expander) (step args : Value) : Except Error (Warned Value) :=
  if isLoop step then expandLoop f step args else .ok (args, [])

/-- Arguments with the steps among them expanded. -/
def plainArgs (f : Expander) (args : Value) : Except Error (Warned Value) :=
  match args.field "steps" with
  | .list xs => do
    let r ← f xs
    pure (args.setField "steps" (.list r.1), r.2)
  | _ => .ok (args, [])

/-- A step whose block, if it is a loop, has moved to its arguments. -/
def withoutBlock (step : Value) : Value := if isLoop step then step.dropField "block" else step

theorem expandInside_eq (f : Expander) (step : Value) :
    expandInside f step = (do
      let choice ← choiceArgs f step
      let loop ← loopArgs f step choice.1
      let plain ← plainArgs f loop.1
      pure ((withoutBlock step).setField "args" plain.1, choice.2 ++ loop.2 ++ plain.2)) := by
  have hite {b : Bool} {x y : Except Error (Warned Value)}
      {k : Warned Value → Except Error (Warned Value)} :
      (if b then x >>= k else y >>= k) = (if b then x else y) >>= k := by
    cases b <;> rfl
  unfold expandInside
  dsimp only
  refine hite.trans (bind_congr fun choice => hite.trans (bind_congr fun loop => ?_))
  unfold plainArgs
  cases loop.1.field "steps" with
  | list xs =>
    dsimp only
    cases f xs <;> rfl
  | _ => rfl

def insideArgs (f : Expander) (step : Value) : Except Error (Warned Value) := do
  let choice ← choiceArgs f step
  let loop ← loopArgs f step choice.1
  let plain ← plainArgs f loop.1
  pure (plain.1, choice.2 ++ loop.2 ++ plain.2)

theorem expandInside_eq_insideArgs (f : Expander) (step : Value) : expandInside f step =
      (insideArgs f step).map fun r => ((withoutBlock step).setField "args" r.1, r.2) := by
  rw [expandInside_eq, insideArgs]
  cases choiceArgs f step with
  | error err => rfl
  | ok choice =>
    change loopArgs f step choice.1 >>= _ = Except.map _ (loopArgs f step choice.1 >>= _)
    cases loopArgs f step choice.1 with
    | error err => rfl
    | ok loop =>
      change plainArgs f loop.1 >>= _ = Except.map _ (plainArgs f loop.1 >>= _)
      cases plainArgs f loop.1 <;> rfl

/-! ### What is visited -/

structure Visits {α : Type} (c : Expander → Except Error α) (held : List Value → Prop) : Prop where
  ok : ∀ {f r}, c f = .ok r → ∀ xs, held xs → ∃ s, f xs = .ok s
  congr : ∀ {f g}, (∀ xs, held xs → f xs = g xs) → c f = c g

namespace Visits

variable {α β : Type}

theorem none (x : Except Error α) : Visits (fun _ => x) fun _ => False :=
  ⟨fun _ _ h => h.elim, fun _ => rfl⟩

theorem one (xs : List Value) : Visits (fun f => f xs) (· = xs) :=
  ⟨fun {_ r} h _ hxs => ⟨r, hxs ▸ h⟩, fun h => h xs rfl⟩

variable {c : Expander → Except Error α} {held held' : List Value → Prop}
  {d : α → Expander → Except Error β}

theorem bind (hc : Visits c held) (hd : ∀ {f a}, c f = .ok a → Visits (d a) held') :
    Visits (fun f => c f >>= (d · f)) fun xs => held xs ∨ held' xs := by
  constructor
  · intro f r h xs hxs
    obtain ⟨a, ha, h⟩ := of_bind_ok h
    exact hxs.elim (hc.ok ha xs) ((hd ha).ok h xs)
  · intro f g hfg
    rw [← hc.congr fun xs hxs => hfg xs (.inl hxs)]
    cases ha : c f with
    | error err => rfl
    | ok a => exact (hd ha).congr fun xs hxs => hfg xs (.inr hxs)

theorem iff (hc : Visits c held) (hiff : ∀ xs, held xs ↔ held' xs) : Visits c held' := by
  obtain rfl : held = held' := funext fun xs => propext (hiff xs)
  exact hc

variable {x : Except Error α}

theorem after (hd : ∀ {a}, x = .ok a → Visits (d a) held) : Visits (fun f => x >>= (d · f)) held :=
  (bind (none x) fun h => hd h).iff fun _ => or_iff_right id

/-- Before what expands nothing. -/
theorem before {k : α → Except Error β} (hc : Visits c held) : Visits (fun f => c f >>= k) held :=
  (bind hc fun _ => none _).iff fun _ => or_iff_left id

theorem ite {b : Bool} (hc : Visits c held) :
    Visits (fun f => if b = true then c f else x) fun xs => b = true ∧ held xs := by
  cases b with
  | true => exact hc.iff fun xs => (and_iff_right rfl).symm
  | false => exact (none x).iff fun xs => by simp

end Visits

theorem visits_expandBranches (bs : List Value) :
    Visits (expandBranches · bs) fun xs => ∃ b ∈ bs, stepsIn b = .ok xs := by
  induction bs with
  | nil => exact (Visits.none (.ok ([], []))).iff fun xs => by simp
  | cons b bs ih =>
    refine (Visits.after fun hsteps => ?_)
    obtain ⟨_, rfl⟩ := exists_of_lookup hsteps
    refine Visits.after fun {items} hitems => ?_
    refine (Visits.bind (.one items) fun _ => ih.before).iff fun xs => ?_
    have hone : xs = items ↔ stepsIn b = .ok xs :=
      ⟨fun h => h ▸ hitems, fun h => Except.ok.inj (h.symm.trans hitems)⟩
    rw [hone]
    simp

theorem visits_expandChoice (args : Value) : Visits (expandChoice · args) fun xs =>
      ∃ bs, args.field "branches" = .list bs ∧ ∃ b ∈ bs, stepsIn b = .ok xs := by
  unfold expandChoice
  cases args.field "branches" with
  | list bs =>
    refine (visits_expandBranches bs).before.iff fun xs => ?_
    simp
  | _ => exact (Visits.none _).iff fun xs => by simp

theorem visits_expandLoop (step args : Value) : Visits (expandLoop · step args) fun xs =>
      (∃ fs, blockOf step args = .obj fs ∧ stepsIn (.obj fs) = .ok xs) ∨
        blockOf step args = .list xs := by
  unfold expandLoop
  cases blockOf step args with
  | obj fs =>
    refine Visits.after fun {items} hitems => (Visits.one items).before.iff fun xs => ?_
    change stepsIn (.obj fs) = .ok items at hitems
    simp [hitems, eq_comm]
  | list ys =>
    refine (Visits.one ys).before.iff fun xs => ?_
    simp [eq_comm]
  | _ => exact (Visits.none _).iff fun xs => by simp

theorem visits_plainArgs (args : Value) :
    Visits (plainArgs · args) fun xs => args.field "steps" = .list xs := by
  unfold plainArgs
  cases args.field "steps" with
  | list ys =>
    refine (Visits.one ys).before.iff fun xs => ?_
    simp [eq_comm]
  | _ => exact (Visits.none _).iff fun xs => by simp

/-- A place in the arguments, and nothing else, was written anew. -/
def Writes (name : String) (args args' : Value) : Prop :=
  args' = args ∨ ∃ w, args' = args.setField name w

theorem Writes.field {other : String} {args' : Value} (h : Writes name args args')
    (hname : name ≠ other) : args'.field other = args.field other := by
  rcases h with rfl | ⟨w, rfl⟩
  · rfl
  · exact field_setField_of_ne _ hname _

theorem Writes.isObj_eq {args' : Value} (h : Writes name args args') : args'.isObj = args.isObj := by
  rcases h with rfl | ⟨w, rfl⟩
  · rfl
  · exact isObj_setField _ _ _

theorem writes_choiceArgs (h : choiceArgs f step = .ok r) : Writes "branches" (argsOf step) r.1 := by
  unfold choiceArgs expandChoice at h
  split at h
  · split at h
    · obtain ⟨_, _, h⟩ := of_bind_ok h
      cases h
      exact .inr ⟨_, rfl⟩
    · cases h
      exact .inl rfl
  · cases h
    exact .inl rfl

theorem writes_loopArgs (h : loopArgs f step args = .ok r) : Writes "block" args r.1 := by
  unfold loopArgs expandLoop at h
  split at h
  · split at h
    · obtain ⟨_, _, h⟩ := of_bind_ok h
      obtain ⟨_, _, h⟩ := of_bind_ok h
      cases h
      exact .inr ⟨_, rfl⟩
    · obtain ⟨_, _, h⟩ := of_bind_ok h
      cases h
      exact .inr ⟨_, rfl⟩
    · cases h
      exact .inl rfl
  · cases h
    exact .inl rfl

theorem writes_plainArgs (h : plainArgs f args = .ok r) : Writes "steps" args r.1 := by
  unfold plainArgs at h
  split at h
  · obtain ⟨_, _, h⟩ := of_bind_ok h
    cases h
    exact .inr ⟨_, rfl⟩
  · cases h
    exact .inl rfl

theorem blockOf_congr {args' : Value} (h : args'.field "block" = args.field "block") :
    blockOf step args' = blockOf step args := by
  unfold blockOf
  rw [h]

theorem blockOf_cases (step args : Value) : blockOf step args = args.field "block" ∨
      (args.field "block" = .null ∧ ∃ fs, blockOf step args = .obj fs) := by
  unfold blockOf
  split
  · rename_i hnull _
    exact .inr ⟨hnull, _, rfl⟩
  · rename_i hnull _
    exact .inr ⟨hnull, _, rfl⟩
  · exact .inl rfl

/-- What expansion does inside a step depends on what it does with the lists that the step
    holds, and it succeeds only if it does with all of them. -/
theorem visits_expandInside (step : Value) : Visits (expandInside · step) (Holds step) := by
  have hchoice : Visits (choiceArgs · step) _ := (visits_expandChoice (argsOf step)).ite
  -- each place is looked at in the arguments that the one before it gave, and they differ from
  -- those of the step only in places already looked at
  have hloop {f a} (ha : choiceArgs f step = .ok a) : Visits (loopArgs · step a.1) fun xs =>
      isLoop step = true ∧
        ((∃ fs, blockOf step (argsOf step) = .obj fs ∧ stepsIn (.obj fs) = .ok xs) ∨
          blockOf step (argsOf step) = .list xs) := by
    rw [← blockOf_congr ((writes_choiceArgs ha).field (by decide))]
    exact (visits_expandLoop step a.1).ite
  have hplain {f g a b} (ha : choiceArgs f step = .ok a) (hb : loopArgs g step a.1 = .ok b) :
      Visits (plainArgs · b.1) fun xs => (argsOf step).field "steps" = .list xs := by
    rw [← (writes_choiceArgs ha).field (by decide), ← (writes_loopArgs hb).field (by decide)]
    exact visits_plainArgs b.1
  rw [funext fun f => expandInside_eq f step]
  refine (hchoice.bind fun ha => (hloop ha).bind fun hb => (hplain ha hb).before).iff fun xs => ?_
  constructor
  · rintro (⟨hverb, bs, hbs, b, hb, hxs⟩ | ⟨hverb, ⟨fs, hfs, hxs⟩ | hxs⟩ | hxs)
    · exact .branch hverb hbs hb hxs
    · exact .block hverb hfs hxs
    · exact .items hverb hxs
    · exact .args hxs
  · rintro (⟨hverb, hbs, hb, hxs⟩ | ⟨hverb, hfs, hxs⟩ | ⟨hverb, hxs⟩ | hxs)
    · exact .inl ⟨hverb, _, hbs, _, hb, hxs⟩
    · exact .inr (.inl ⟨hverb, .inl ⟨_, hfs, hxs⟩⟩)
    · exact .inr (.inl ⟨hverb, .inr hxs⟩)
    · exact .inr (.inr hxs)

theorem exists_of_expandEach {steps : List Value} {r : Warned (List Value)}
    (h : expandEach f steps = .ok r) :
    ∀ t ∈ r.1, ∃ v ∈ steps, ∃ warnings, expandInside f v = .ok (t, warnings) := by
  induction steps generalizing r with
  | nil =>
    cases h
    exact fun t ht => absurd ht List.not_mem_nil
  | cons v rest ih =>
    obtain ⟨⟨t, warnings⟩, ht, h⟩ := of_bind_ok h
    obtain ⟨others, hothers, h⟩ := of_bind_ok h
    cases h
    refine List.forall_mem_cons.mpr ⟨⟨v, List.mem_cons_self, warnings, ht⟩, fun t' ht' => ?_⟩
    obtain ⟨w, hw, hin⟩ := ih hothers t' ht'
    exact ⟨w, List.mem_cons_of_mem v hw, hin⟩

theorem visits_expandEach (steps : List Value) :
    Visits (expandEach · steps) fun xs => ∃ v ∈ steps, Holds v xs := by
  induction steps with
  | nil => exact (Visits.none (.ok ([], []))).iff fun xs => by simp
  | cons v steps ih =>
    refine (Visits.bind (visits_expandInside v) fun _ => ih.before).iff fun xs => ?_
    simp

/-! ### What comes out -/

/-- A branch or a block that has steps of some sort. -/
def HasSteps (p : List Value → Prop) (b : Value) : Prop :=
  ∃ xs, b.field? "steps" = some (.list xs) ∧ p xs

/-- Arguments of a step that have steps of some sort in all three places. -/
structure Filled (p : List Value → Prop) (step args : Value) : Prop where
  isObj : args.isObj
  branches : isChoice step → ∀ bs, args.field "branches" = .list bs → ∀ b ∈ bs, HasSteps p b
  block : isLoop step → ∀ fs, args.field "block" = .obj fs → HasSteps p (.obj fs)
  noList : isLoop step → ∀ xs, args.field "block" ≠ .list xs
  steps : ∀ xs, args.field "steps" = .list xs → p xs

section Filled

variable {p : List Value → Prop} {b : Value} {xs : List Value}

theorem HasSteps.stepsIn_eq (h : HasSteps p b) : ∃ xs, stepsIn b = .ok xs ∧ p xs := by
  obtain ⟨xs, hsteps, hxs⟩ := h
  refine ⟨xs, ?_, hxs⟩
  rw [stepsIn, field, hsteps]
  exact items_list xs

theorem Filled.of_verb {step' : Value} (h : Filled p step args)
    (hverb : step'.field "verb" = step.field "verb") : Filled p step' args := by
  have hchoice : isChoice step' = isChoice step := by rw [isChoice, isChoice, hverb]
  have hloop : isLoop step' = isLoop step := by rw [isLoop, isLoop, hverb]
  exact ⟨h.isObj, hchoice ▸ h.branches, hloop ▸ h.block, hloop ▸ h.noList, h.steps⟩

theorem Filled.of_holds (h : Filled p step (argsOf step))
    (hnone : isLoop step → step.field? "block" = none) (hxs : Holds step xs) : p xs := by
  have hamong (hverb : isLoop step) :
      blockOf step (argsOf step) = (argsOf step).field "block" := by
    have hbeside : step.field "block" = .null := congrArg (·.getD .null) (hnone hverb)
    rw [blockOf, hbeside]
    cases (argsOf step).field "block" <;> rfl
  have hsteps {b} (hb : HasSteps p b) (hxs : stepsIn b = .ok xs) : p xs := by
    obtain ⟨ys, hys, hp⟩ := hb.stepsIn_eq
    rwa [Except.ok.inj (hxs.symm.trans hys)]
  cases hxs with
  | branch hverb hbs hb hxs => exact hsteps (h.branches hverb _ hbs _ hb) hxs
  | block hverb hfs hxs => exact hsteps (h.block hverb _ ((hamong hverb).symm.trans hfs)) hxs
  | items hverb hxs => exact absurd ((hamong hverb).symm.trans hxs) (h.noList hverb xs)
  | args hxs => exact h.steps xs hxs

variable (hp : ∀ xs r, f xs = .ok r → p r.1)

include hp

theorem hasSteps_of_expandBranches {bs : List Value} {r : Warned (List Value)}
    (h : expandBranches f bs = .ok r) : ∀ b ∈ r.1, HasSteps p b := by
  induction bs generalizing r with
  | nil =>
    cases h
    exact List.forall_mem_nil _
  | cons b bs ih =>
    obtain ⟨steps, hlookup, h⟩ := of_bind_ok h
    obtain ⟨xs, _, h⟩ := of_bind_ok h
    obtain ⟨inner, hinner, h⟩ := of_bind_ok h
    obtain ⟨others, hothers, h⟩ := of_bind_ok h
    cases h
    obtain ⟨fs, rfl⟩ := exists_of_isObj (exists_of_lookup hlookup).1
    exact List.forall_mem_cons.mpr
      ⟨⟨inner.1, get?_put_self fs "steps" _, hp _ _ hinner⟩, ih hothers⟩

theorem branches_of_expandChoice (hobj : args.isObj) (h : expandChoice f args = .ok r) :
    ∀ bs, r.1.field "branches" = .list bs → ∀ b ∈ bs, HasSteps p b := by
  intro bs hbs
  unfold expandChoice at h
  split at h
  · obtain ⟨inner, hinner, h⟩ := of_bind_ok h
    cases h
    rw [field_setField_self hobj, list.injEq] at hbs
    rw [← hbs]
    exact hasSteps_of_expandBranches hp hinner
  · rename_i hnot
    cases h
    exact absurd hbs (hnot bs)

theorem block_of_expandLoop (hobj : args.isObj) (h : expandLoop f step args = .ok r) :
    (∀ fs, r.1.field "block" = .obj fs → HasSteps p (.obj fs)) ∧
      ∀ xs, r.1.field "block" ≠ .list xs := by
  -- a block that was expanded is an object, whatever it was before
  have hput {b : Value} (hb : HasSteps p b) (hbobj : b.isObj = true) :
      (∀ fs, (args.setField "block" b).field "block" = .obj fs → HasSteps p (.obj fs)) ∧
        ∀ xs, (args.setField "block" b).field "block" ≠ .list xs := by
    rw [field_setField_self hobj]
    refine ⟨fun fs hfs => hfs ▸ hb, ?_⟩
    rintro xs rfl
    cases hbobj
  unfold expandLoop at h
  split at h
  · obtain ⟨xs, _, h⟩ := of_bind_ok h
    obtain ⟨inner, hinner, h⟩ := of_bind_ok h
    cases h
    exact hput ⟨inner.1, get?_put_self _ _ _, hp _ _ hinner⟩ rfl
  · obtain ⟨inner, hinner, h⟩ := of_bind_ok h
    cases h
    exact hput ⟨inner.1, rfl, hp _ _ hinner⟩ rfl
  · rename_i hnotObj hnotList
    cases h
    have hsame : args.field "block" ≠ .null → blockOf step args = args.field "block" := by
      intro hnull
      rcases blockOf_cases step args with h | ⟨h, _⟩
      · exact h
      · exact absurd h hnull
    refine ⟨fun fs hfs => absurd ((hsame ?_).trans hfs) (hnotObj fs),
      fun xs hxs => absurd ((hsame ?_).trans hxs) (hnotList xs)⟩
    · rw [hfs]
      exact fun h => Value.noConfusion h
    · rw [hxs]
      exact fun h => Value.noConfusion h

theorem steps_of_plainArgs (hobj : args.isObj) (h : plainArgs f args = .ok r) :
    ∀ xs, r.1.field "steps" = .list xs → p xs := by
  intro xs hxs
  unfold plainArgs at h
  split at h
  · obtain ⟨inner, hinner, h⟩ := of_bind_ok h
    cases h
    rw [field_setField_self hobj, list.injEq] at hxs
    rw [← hxs]
    exact hp _ _ hinner
  · rename_i hnot
    cases h
    exact absurd hxs (hnot xs)

theorem filled_of_insideArgs (hobj : (argsOf step).isObj) (h : insideArgs f step = .ok r) :
    Filled p step r.1 := by
  obtain ⟨choice, hchoice, h⟩ := of_bind_ok h
  obtain ⟨loop, hloop, h⟩ := of_bind_ok h
  obtain ⟨plain, hplain, h⟩ := of_bind_ok h
  cases h
  have hchoiceObj : choice.1.isObj := (writes_choiceArgs hchoice).isObj_eq.trans hobj
  have hloopObj : loop.1.isObj := (writes_loopArgs hloop).isObj_eq.trans hchoiceObj
  refine ⟨(writes_plainArgs hplain).isObj_eq.trans hloopObj, fun hverb bs hbs => ?_, fun hverb => ?_,
    fun hverb => ?_, fun xs hxs => steps_of_plainArgs hp hloopObj hplain xs hxs⟩
  · rw [(writes_plainArgs hplain).field (by decide), (writes_loopArgs hloop).field (by decide)] at hbs
    rw [choiceArgs, if_pos hverb] at hchoice
    exact branches_of_expandChoice hp hobj hchoice bs hbs
  · rw [(writes_plainArgs hplain).field (by decide)]
    rw [loopArgs, if_pos hverb] at hloop
    exact (block_of_expandLoop hp hchoiceObj hloop).1
  · rw [(writes_plainArgs hplain).field (by decide)]
    rw [loopArgs, if_pos hverb] at hloop
    exact (block_of_expandLoop hp hchoiceObj hloop).2

omit hp in
theorem isObj_withoutBlock (step : Value) : (withoutBlock step).isObj = step.isObj := by
  unfold withoutBlock
  split
  · cases step <;> rfl
  · rfl

omit hp in
theorem field_withoutBlock (step : Value) (hname : "block" ≠ name) :
    (withoutBlock step).field name = step.field name := by
  unfold withoutBlock
  split
  · exact field_dropField_of_ne step hname
  · rfl

/-- A step after expansion inside it: its verb is as before, its arguments are filled, and no
    block of a loop is left beside them. -/
theorem filled_of_expandInside (hobj : step.isObj) (hargs : (argsOf step).isObj)
    (h : expandInside f step = .ok r) :
    r.1.isObj ∧ r.1.field "verb" = step.field "verb" ∧ (∃ fs, r.1.field "args" = .obj fs) ∧
      Filled p r.1 (argsOf r.1) ∧ (isLoop r.1 → r.1.field? "block" = none) := by
  rw [expandInside_eq_insideArgs] at h
  cases hinside : insideArgs f step with
  | error err =>
    rw [hinside] at h
    cases h
  | ok inner =>
    rw [hinside] at h
    cases h
    have hfilled := filled_of_insideArgs hp hargs hinside
    have hwithout : (withoutBlock step).isObj := (isObj_withoutBlock step).trans hobj
    have hverb : ((withoutBlock step).setField "args" inner.1).field "verb" =
        step.field "verb" := by
      rw [field_setField_of_ne _ (by decide), field_withoutBlock step (by decide)]
    obtain ⟨fs, hinner⟩ := exists_of_isObj hfilled.isObj
    have hfield : ((withoutBlock step).setField "args" inner.1).field "args" = .obj fs :=
      (field_setField_self hwithout _ _).trans hinner
    refine ⟨(isObj_setField _ _ _).trans hwithout, hverb, ⟨fs, hfield⟩, ?_, fun hloop => ?_⟩
    · rw [argsOf_eq hfield, ← hinner]
      exact hfilled.of_verb hverb
    · rw [isLoop, hverb] at hloop
      rw [field?_setField_of_ne _ (by decide), withoutBlock, isLoop, if_pos hloop]
      obtain ⟨gs, rfl⟩ := exists_of_isObj hobj
      exact get?_erase_self gs "block"

end Filled

/-! ### Modules -/

theorem lookup_of_isObj {v : Value} (hobj : v.isObj) (name : String) :
    v.lookup name = .ok (v.field name) := by
  cases v with
  | obj fs => rfl
  | _ => cases hobj

/-- The field in which a module has its steps, and the steps. -/
def flowPlace? (m : Value) : Option (String × List Value) := match m.field "flow" with
  | .list steps => some ("flow", steps)
  | _ =>
    match m.field "steps", m.hasField "flow" with
    | .list steps, false => some ("steps", steps)
    | _, _ => none

variable {table : Table} {options : Options} {m : Value}

theorem isObj_of_expandFlow (h : expandFlow table options m = .ok r) : m.isObj := by
  obtain ⟨_, hflow, _⟩ := of_bind_ok h
  exact (exists_of_lookup hflow).1

theorem expandFlow_eq (hobj : m.isObj) : expandFlow table options m = match flowPlace? m with
    | some (name, steps) => do
      let r ← expandList table options depthLimit steps
      pure (m.setField name (.list r.1), r.2)
    | none => .ok (m, []) := by
  unfold expandFlow flowPlace?
  -- the limit is a large number, and nothing here depends on it
  generalize depthLimit = depth
  rw [lookup_of_isObj hobj]
  change (match m.field "flow" with | .list _ => _ | _ => _) = _
  cases m.field "flow" with
  | list steps => rfl
  | _ =>
    cases m.field "steps" with
    | list steps => cases m.hasField "flow" <;> rfl
    | _ => rfl

theorem expandModule_of_wrapper (hobj : m.isObj) (hinner : (m.field "module").isObj) :
    expandModule table options m = (do
      let r ← expandFlow table options (m.field "module")
      pure (m.setField "module" r.1, r.2)) := by
  obtain ⟨fs, rfl⟩ := exists_of_isObj hobj
  rw [expandModule, lookup_of_isObj hobj]
  simp only [isNull, bind, Except.bind, hinner, if_true]
  rfl

theorem expandModule_of_not_wrapper (hobj : m.isObj)
    (hinner : ¬(m.field "module").isObj) :
    expandModule table options m = expandFlow table options m := by
  obtain ⟨fs, rfl⟩ := exists_of_isObj hobj
  rw [expandModule, lookup_of_isObj hobj]
  simp only [isNull, bind, Except.bind, hinner]
  rfl

end Loom.Overlay
