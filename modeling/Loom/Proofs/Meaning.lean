import Loom.Proofs.Frame
import Loom.Proofs.Nest
import Loom.Proofs.Settling

/-!
# What the Canonical Form Keeps of a Run

The canonical form of a flow moves a single `Return` to the end of its list, fills
empty repetitions and draws `Return`s out of others. The last two change how often
steps are taken, so that a run may come to another result. This is about the flows
in which only the first happens, those that are still.

A `Return` that is moved lets steps be taken that were not reached before. If one of
them returns, or binds a variable that the `Return` names, the result is another
one. If they do neither at any depth, the flow comes to the same result, unless they
fail: `canonical_keeps_result`.

Repetitions are only built with the arguments of a header or with none, which is
what lets a run of one be taken apart into rounds. How a block follows another does
not depend on what its rounds bind, so one induction on the depth of the run is
enough.
-/

namespace Loom.Flow

open Loom.Text Loom.Outline Node Session List Run Nest Value

variable {α : Type}
variable {args : Value} {c : Builder} {ns : List (Node α)} {r : Node α}

/-! ### Repetitions that are built -/

/-- The arguments that a repetition is built with: a variable and what it ranges
    over, or none. -/
def IsLoopArgs (args : Value) : Prop :=
  args = .obj [] ∨ ∃ name range, args = .obj [("iter", .str name), ("range", range)]

theorem isLoopArgs_of_headerArgs {header : String} (h : headerArgs header = .ok args) :
    IsLoopArgs args := by
  obtain ⟨found, hfound, h⟩ := of_bind_ok h
  cases h
  rw [readHeader?] at hfound
  split at hfound
  · rename_i m _
    obtain ⟨range, _, hfound⟩ := of_bind_ok hfound
    cases hfound
    exact .inr ⟨_, range, rfl⟩
  · cases hfound
    exact .inl rfl

def Entry.IsBuilt : Entry α → Prop
  | line _ => True
  | loop _ args => IsLoopArgs args

/-- An entry as it is built, with what its line says. -/
def Entry.IsRead : Entry α → Prop
  | line s => IsSpoken s.step
  | loop _ args => IsLoopArgs args

variable {e : Entry α}

theorem Entry.IsRead.isBuilt (h : e.IsRead) : e.IsBuilt := by
  cases e with
  | line s => trivial
  | loop origin args => exact h

variable {rest : List Value} {step : Value} {taken : Nat}

variable {b : Nest Unit}

theorem isRead_of_buildStep
    (hb : ∀ e ∈ b.entries, e.IsRead) (h : buildStep b.toBuilder step rest = .ok (c, taken)) :
    ∃ b' : Nest Unit, c = b'.toBuilder ∧ ∀ e ∈ b'.entries, e.IsRead := by
  cases takes_of_buildStep h with
  | other hobj => exact ⟨b, rfl, hb⟩
  | header hheader hargs hadd =>
    obtain ⟨b', before, stub, after, hc, hlist, hlist', _⟩ := exists_entries_of_addHeader () hadd
    refine ⟨b', hc, fun e he => ?_⟩
    rw [hlist', mem_append, mem_cons] at he
    rcases he with he | rfl | he
    · exact hb e (by rw [hlist]; exact mem_append_left _ he)
    · exact isLoopArgs_of_headerArgs hargs
    · exact hb e (by rw [hlist]; exact mem_append_right _ (mem_append_right _ he))
  | @stub level upTo own found args hrepeat hheader hfound hargs =>
    refine ⟨(b.leave upTo).openLoop own () args, ?_, fun e he => ?_⟩
    · rw [toBuilder_openLoop, toBuilder_leave]
    · rw [entries_openLoop, entries_leave, mem_append, mem_singleton] at he
      rcases he with he | rfl
      · exact hb e he
      · rcases hargs with rfl | ⟨header, hargs⟩
        · exact .inl rfl
        · exact isLoopArgs_of_headerArgs hargs
  | @line level s hheader hread =>
    refine ⟨(b.leave level).push (.line ⟨(), s, isStatement_of_readLine hread⟩), ?_, fun e he => ?_⟩
    · rw [toBuilder_push, toBuilder_leave]
      rfl
    · rw [entries_push, entries_leave, mem_append] at he
      rcases he with he | he
      · exact hb e he
      · rw [Node.entries, mem_singleton] at he
        rw [he]
        exact isSpoken_of_readLine hread

theorem isRead_of_buildSteps {skip : Nat} {steps : List Value}
    (hb : ∀ e ∈ b.entries, e.IsRead) (h : buildSteps b.toBuilder skip steps = .ok c) :
    ∃ b' : Nest Unit, c = b'.toBuilder ∧ ∀ e ∈ b'.entries, e.IsRead := by
  induction steps generalizing b skip with
  | nil =>
    rw [buildSteps] at h
    exact ⟨b, (Except.ok.inj h).symm, hb⟩
  | cons step rest ih =>
    cases skip with
    | succ k =>
      rw [buildSteps] at h
      exact ih hb h
    | zero =>
      rw [buildSteps] at h
      obtain ⟨⟨c', taken⟩, hstep, h⟩ := of_bind_ok h
      obtain ⟨b₁, rfl, hb₁⟩ := isRead_of_buildStep hb hstep
      exact ih hb₁ h

variable {flow : List Value} {steps : Value}

theorem exists_isRead_of_buildFlow (h : buildFlow steps = .ok flow) :
    ∃ ns : List (Node Unit), flow = toValues ns ∧ ∀ e ∈ entriesOf ns, e.IsRead := by
  obtain ⟨list, _, h⟩ := of_bind_ok h
  obtain ⟨c, hc, h⟩ := of_bind_ok h
  obtain ⟨b, rfl, hb⟩ := isRead_of_buildSteps (b := {}) (fun e he => nomatch he) hc
  refine ⟨b.forest, ?_, fun e he => hb e ?_⟩
  · rw [toValues_forest]
    exact (Except.ok.inj h).symm
  · rwa [entriesOf_forest] at he

theorem exists_isBuilt_of_buildFlow (h : buildFlow steps = .ok flow) :
    ∃ ns : List (Node Unit), flow = toValues ns ∧ ∀ e ∈ entriesOf ns, e.IsBuilt := by
  obtain ⟨ns, hflow, hread⟩ := exists_isRead_of_buildFlow h
  exact ⟨ns, hflow, fun e he => (hread e he).isBuilt⟩

/-! ### Documents determine their nodes -/

theorem loopStep_inj {args' : Value} {vs vs' : List Value}
    (h : loopStep args vs = loopStep args' vs') : args = args' ∧ vs = vs' := by
  simpa [loopStep] using h

mutual

theorem toValue_injective : ∀ n m : Node Unit, n.toValue = m.toValue → n = m
  | .line ⟨_, s, _⟩, .line ⟨_, s', _⟩, h => by
    obtain rfl : s = s' := h
    rfl
  | .line s, .loop _ args b, h => by
    have hs := hasVerb_repeat (.line s)
    rw [h, hasVerb_repeat] at hs
    cases hs
  | .loop _ args b, .line s, h => by
    have hs := hasVerb_repeat (.line s)
    rw [← h, hasVerb_repeat] at hs
    cases hs
  | .loop _ args b, .loop _ args' b', h => by
    obtain ⟨rfl, hb⟩ := loopStep_inj h
    rw [toValues_injective b b' hb]

theorem toValues_injective : ∀ ns ms : List (Node Unit), toValues ns = toValues ms → ns = ms
  | [], [], _ => rfl
  | [], _ :: _, h => by
    rw [toValues, toValues] at h
    exact absurd h.symm (cons_ne_nil _ _)
  | _ :: _, [], h => by
    rw [toValues, toValues] at h
    exact absurd h (cons_ne_nil _ _)
  | n :: ns, m :: ms, h => by
    rw [toValues, toValues, List.cons.injEq] at h
    rw [toValue_injective n m h.1, toValues_injective ns ms h.2]

end

/-! ### Runs of nodes -/

theorem ofValue_stepValue {verb : String} (h : verb ∈ plainVerbs) (args : Fields Value) :
    Step.ofValue (stepValue verb args)
      = .ok ⟨verb, Step.canonicalArgs verb (stepValue verb args) args, verb⟩ := by
  have hargs : (obj args).toFieldsOrNone = .ok args := by cases args <;> rfl
  simp only [plainVerbs, mem_cons, not_mem_nil, or_false] at h
  rcases h with rfl | rfl | rfl | rfl | rfl
  all_goals
    rw [Step.ofValue]
    change ((obj args).toFieldsOrNone >>= _) = _
    rw [hargs]
    rfl

theorem exists_ofValue (s : Statement α) :
    ∃ step, Step.ofValue s.step = .ok step ∧ step.verb ∈ plainVerbs ∧
      (step.verb = "Return" ↔ hasVerb "Return" s.step) := by
  obtain ⟨verb, args, hs, hverb⟩ := s.isStatement
  rw [hs]
  refine ⟨_, ofValue_stepValue hverb args, hverb, ?_⟩
  exact beq_iff_eq.symm

theorem repeatArgs_loopStep (args iter range : Value) (vs : List Value) :
    Step.repeatArgs (loopStep args vs) [("iter", iter), ("range", range)]
      = [("range", range), ("iterator", iter), ("block", Step.blockOf (.list vs))] := by
  have hiter : Step.iteratorArgs [("iter", iter), ("range", range)]
      = [("range", range), ("iterator", iter)] := rfl
  have hin : Step.renameFirst "iterable" ["in"] [("range", range), ("iterator", iter)]
      = [("range", range), ("iterator", iter)] := rfl
  rw [Step.repeatArgs, hiter, hin]
  rfl

theorem ofValue_loopStep (name : String) (range : Value) (vs : List Value) :
    Step.ofValue (loopStep (.obj [("iter", .str name), ("range", range)]) vs)
      = .ok ⟨"Repeat", [("range", range), ("iterator", .str name),
        ("block", Step.blockOf (.list vs))], "Repeat"⟩ := by
  rw [← repeatArgs_loopStep (.obj [("iter", .str name), ("range", range)])]
  rfl

theorem takeStep_loop (h : IsLoopArgs args) (depth : Nat) (vs : List Value) :
    takeStep (depth + 1) (loopStep args vs) = looped args (Run.steps (takeStep depth) vs) := by
  rcases h with rfl | ⟨name, range, rfl⟩
  · rfl
  · rw [takeStep, Run.step, ofValue_loopStep]
    change repeatStep _ _ = _
    rw [repeatStep, looped]
    change (if (range.field "type").isText "Range" then _ else _)
      = if (range.field "type").isText "Range" then _ else _
    split
    · simp only [← countLoop_eq]
      rfl
    · rfl

/-! ### What entries bind -/

def stepOf (v : Value) : Step := (Step.ofValue v).toOption.getD ⟨"", [], ""⟩

variable {v : Value}

theorem stepOf_of_ok {step : Step} (h : Step.ofValue v = .ok step) : stepOf v = step := by
  rw [stepOf, h]
  rfl

namespace Entry

def targets : Entry α → List String
  | line s => (stepOf s.step).targets
  | loop _ args => (args.field "iter").str?.toList

/-- An entry that binds none of some variables, and is a `Return` only under a
    condition. -/
def Within (xs : List String) (p : Prop) (e : Entry α) : Prop :=
  e.IsBuilt ∧ (∀ x ∈ e.targets, x ∉ xs) ∧ (e.isReturn = true → p)

end Entry

variable {n : Node α}

theorem mem_entriesOf (hn : n ∈ ns) (he : e ∈ n.entries) : e ∈ entriesOf ns := by
  rw [entriesOf_eq_flatMap]
  exact mem_flatMap.mpr ⟨n, hn, he⟩

variable {xs : List String} {p : Prop}

/-- A node is within what its entries are within. The induction is on the depth, of
    which the steps in the block of a repetition have one less. -/
theorem within_takeStep (depth : Nat)
    (h : ∀ e ∈ n.entries, e.Within xs p) : Run.Within xs p (takeStep depth n.toValue) := by
  induction depth generalizing n with
  | zero => exact within_throw .tooDeep
  | succ depth ih =>
    cases n with
    | line s =>
      obtain ⟨_, htargets, hreturn⟩ := h (.line s) mem_cons_self
      obtain ⟨step, hstep, hverb, hiff⟩ := exists_ofValue s
      rw [Entry.targets, stepOf_of_ok hstep] at htargets
      exact within_step _ _ hstep hverb (fun hv => hreturn (hiff.mp hv)) htargets
    | loop origin args block =>
      obtain ⟨hargs, htargets, _⟩ := h (.loop origin args) mem_cons_self
      rw [toValue, takeStep_loop hargs]
      refine within_looped ?_ (Run.within_steps fun v hv => ?_)
      · rcases hargs with rfl | ⟨name, range, rfl⟩
        · exact .inl rfl
        · exact .inr ⟨name, rfl, htargets name mem_cons_self⟩
      · rw [toValues_eq_map] at hv
        obtain ⟨n, hn, rfl⟩ := mem_map.mp hv
        exact ih fun e he => h e (mem_cons_of_mem _ (mem_entriesOf hn he))

theorem within_steps (depth : Nat) (h : ∀ e ∈ entriesOf ns, e.Within xs p) :
    Run.Within xs p (Run.steps (takeStep depth) (toValues ns)) := by
  refine Run.within_steps fun v hv => ?_
  rw [toValues_eq_map] at hv
  obtain ⟨n, hn, rfl⟩ := mem_map.mp hv
  exact within_takeStep depth fun e he => h e (mem_entriesOf hn he)

/-! ### Moving a `Return` -/

/-- The names that the expression of a `Return` looks up. -/
def Node.reads : Node α → List String
  | line s => (stepOf s.step).reads
  | loop _ _ _ => []

/-- Whether steps may be taken before a `Return`: at no depth one of them returns, or
    binds what it looks up. -/
def mayPrecede (r : Node α) (ns : List (Node α)) : Bool :=
  (entriesOf ns).all fun e => !e.isReturn && e.targets.all (!r.reads.contains ·)

theorem mayPrecede_iff : mayPrecede r ns ↔
      ∀ e ∈ entriesOf ns, e.isReturn = false ∧ ∀ x ∈ e.targets, x ∉ r.reads := by
  simp [mayPrecede]

/-- Whether what comes after a single `Return` may be taken before it. -/
def movesFreely (ns : List (Node α)) : Bool := ns.countP isReturn != 1 ||
    match ns.dropWhile (!·.isReturn) with
    | r :: after => mayPrecede r after
    | [] => true

theorem mayPrecede_of_movesFreely {before after : List (Node α)} (hr : r.isReturn)
    (hone : (before ++ r :: after).countP isReturn = 1)
    (h : movesFreely (before ++ r :: after)) : mayPrecede r after := by
  have hbefore : ∀ n ∈ before, (!n.isReturn) := by
    have hcount := hone
    rw [countP_append, countP_cons_of_pos hr] at hcount
    have hnone : ∀ n ∈ before, ¬n.isReturn := countP_eq_zero.mp (by omega)
    simpa using hnone
  have hdrop : (before ++ r :: after).dropWhile (!·.isReturn) = r :: after := by
    rw [dropWhile_append_of_pos hbefore, dropWhile_cons_of_neg (by simp [hr])]
  rw [movesFreely, hone, hdrop] at h
  simpa using h

/-- Inside some number of repetitions, a single `Return` stands before these steps. -/
inductive GoesPast : Nat → List (Node α) → List (Node α) → Prop
  | here {before after : List (Node α)} {r : Node α} (hr : r.isReturn)
      (hone : (before ++ r :: after).countP isReturn = 1) : GoesPast 0 (before ++ r :: after) after
  | inside {ns block after : List (Node α)} {origin : α} {args : Value} {level : Nat}
      (hmem : Node.loop origin args block ∈ ns) (h : GoesPast level block after) :
      GoesPast (level + 1) ns after

/-- Steps that a single `Return` goes past fail, in some session of a run. -/
def FailsPast (depth : Nat) (ns : List (Node α)) (e : Error) : Prop :=
  ∃ (level : Nat) (after : List (Node α)) (s t : Session), GoesPast level ns after ∧
    s.ready = true ∧
    s.run (Run.steps (takeStep (depth - level)) (toValues after)) = (.error e, t)

variable {depth : Nat}

theorem FailsPast.of_block {block : List (Node α)} {origin : α}
    (hmem : Node.loop origin args block ∈ ns) {e : Error} (h : FailsPast depth block e) :
    FailsPast (depth + 1) ns e := by
  obtain ⟨level, after, s, t, hpast, hs, hrun⟩ := h
  refine ⟨level + 1, after, s, t, .inside hmem hpast, hs, ?_⟩
  rwa [Nat.add_sub_add_right]

mutual

theorem settleNode_eq_self : ∀ n : Node α, (∀ e ∈ n.entries, e.isReturn = false) → n.settleNode = n
  | .line _, _ => rfl
  | .loop origin args block, h => by
    have hin : ∀ e ∈ entriesOf block, e.isReturn = false := fun e he => h e (mem_cons_of_mem _ he)
    have hnone : block.countP Node.isReturn = 0 := countP_eq_zero.mpr fun n hn => by
      cases n with
      | line s =>
        have hs := hin (.line s) (mem_entriesOf hn mem_cons_self)
        rw [Node.isReturn, ← Entry.isReturn.eq_1, hs]
        exact Bool.false_ne_true
      | loop _ _ _ => exact Bool.false_ne_true
    rw [settleNode, settleNodes_eq_self block hin, lastBy, hnone, if_neg Nat.zero_ne_one]

theorem settleNodes_eq_self : ∀ ns : List (Node α), (∀ e ∈ entriesOf ns, e.isReturn = false) →
    settleNodes ns = ns
  | [], _ => rfl
  | n :: ns, h => by
    rw [settleNodes, settleNode_eq_self n fun e he => h e (mem_append_left _ he),
      settleNodes_eq_self ns fun e he => h e (mem_append_right _ he)]

end

theorem run_takeStep_return (hr : r.isReturn) (depth : Nat) :
    (∀ s t : Session, s.run (takeStep depth r.toValue) ≠ (.ok none, t)) ∧
      ∀ s t : Session, Alike r.reads s t →
        (t.run (takeStep depth r.toValue)).1 = (s.run (takeStep depth r.toValue)).1 := by
  cases r with
  | loop _ _ _ => cases hr
  | line line =>
    cases depth with
    | zero =>
      refine ⟨fun _ _ h => ?_, fun _ _ _ => rfl⟩
      cases (Prod.mk.inj h).1
    | succ depth =>
      obtain ⟨⟨verb, args, raw⟩, hstep, _, hiff⟩ := exists_ofValue line
      obtain rfl : verb = "Return" := hiff.mpr hr
      have hrun : ∀ s : Session, (s.run (takeStep (depth + 1) line.step)).1 =
          (s.run (argument (Step.firstArg ⟨"Return", args, raw⟩ ["expr", "value"]))).1.map
            some := by
        intro s
        rw [takeStep, Run.step, hstep]
        exact run_returnStep s _ _
      constructor
      · intro s t h
        have hsome := hrun s
        rw [← toValue, h] at hsome
        cases hv : (s.run (argument (Step.firstArg ⟨"Return", args, raw⟩
          ["expr", "value"]))).1 with
        | error e | ok v => rw [hv] at hsome; cases hsome
      · intro s t halike
        rw [Node.reads, stepOf_of_ok hstep] at halike
        rw [toValue, hrun, hrun, run_argument_congr halike]

/-! ### The canonical form -/

theorem follows_toValues {fails : Error → Prop} {take : Value → Run Run.Outcome}
    {f : Node α → Node α} (h : ∀ n ∈ ns, Run.Follows fails (take n.toValue) (take (f n).toValue)) :
    Run.Follows fails (Run.steps take (toValues ns)) (Run.steps take (toValues (ns.map f))) := by
  induction ns with
  | nil => exact follows_self (keeps_pure none)
  | cons n ns ih =>
    rw [forall_mem_cons] at h
    rw [map_cons, toValues, toValues, steps_cons, steps_cons]
    exact follows_andThen h.1 (ih h.2)

theorem countP_settleNode (ns : List (Node α)) :
    (ns.map settleNode).countP isReturn = ns.countP isReturn := by
  rw [countP_map]
  exact congrArg (countP · ns) (funext isReturn_settleNode)

theorem follows_lastBy (hbuilt : ∀ e ∈ entriesOf ns, e.IsBuilt) (hfree : movesFreely ns)
    (h : ∀ n ∈ ns, Run.Follows (FailsPast depth ns) (takeStep depth n.toValue)
      (takeStep depth n.settleNode.toValue)) :
    Run.Follows (FailsPast depth ns) (Run.steps (takeStep depth) (toValues ns))
      (Run.steps (takeStep depth) (toValues (settled ns))) := by
  rw [settled, settleNodes_eq_map]
  by_cases hone : ns.countP isReturn = 1
  · obtain ⟨r, hmem, hr⟩ := countP_pos_iff.mp (by omega : 0 < ns.countP isReturn)
    obtain ⟨before, after, rfl⟩ := append_of_mem hmem
    have hprecede := mayPrecede_iff.mp (mayPrecede_of_movesFreely hr hone hfree)
    have hwithin : ∀ e ∈ entriesOf after, e.Within r.reads False := fun e he => by
      refine ⟨hbuilt e ?_, (hprecede e he).2, fun hreturn => ?_⟩
      · rw [entriesOf_append, entriesOf]
        exact mem_append_right _ (mem_append_right _ he)
      · rw [(hprecede e he).1] at hreturn
        exact Bool.false_ne_true hreturn
    -- what comes after the `Return` holds none, so it is settled as it is
    have hmap : (before ++ r :: after).map settleNode = before.map settleNode ++ r :: after := by
      have hown : r.settleNode = r := by
        cases r with
        | line s => rfl
        | loop _ _ _ => cases hr
      rw [map_append, map_cons, hown, ← settleNodes_eq_map after,
        settleNodes_eq_self after fun e he => (hprecede e he).1]
    have hcount := countP_settleNode (before ++ r :: after)
    rw [hmap, hone] at hcount
    rw [hmap, lastBy_append_cons hr hcount, toValues_append, toValues_append, toValues_append,
      toValues, toValues, toValues, steps_append, steps_append, steps_append,
      steps_cons, steps_cons, Run.steps, andThen_none]
    refine follows_andThen (follows_toValues fun n hn => h n (mem_append_left _ hn)) ?_
    exact follows_swap (run_takeStep_return hr depth).1 (run_takeStep_return hr depth).2
      (within_steps depth hwithin) fun s t e hs hrun => ⟨0, after, s, t, .here hr hone, hs, hrun⟩
  · rw [lastBy, countP_settleNode, if_neg hone]
    exact follows_toValues h

/-- A run of a settled flow follows the run of the flow. The induction is on the
    depth: a block is run with one less than the list that its repetition is in. -/
theorem follows_settled (depth : Nat) (hbuilt : ∀ e ∈ entriesOf ns, e.IsBuilt)
    (hfree : everywhere movesFreely ns) :
    Run.Follows (FailsPast depth ns) (Run.steps (takeStep depth) (toValues ns))
      (Run.steps (takeStep depth) (toValues (settled ns))) := by
  induction depth generalizing ns with
  | zero =>
    exact follows_lastBy hbuilt (everywhere_self hfree) fun n _ =>
      follows_self (keeps_throw .tooDeep)
  | succ depth ih =>
    refine follows_lastBy hbuilt (everywhere_self hfree) fun n hn => ?_
    have hentries : ∀ e ∈ n.entries, e.IsBuilt := fun e he => hbuilt e (mem_entriesOf hn he)
    cases n with
    | line s =>
      refine follows_self (within_takeStep (p := True) _ fun e he => ?_).keeps
      exact ⟨hentries e he, fun _ _ => not_mem_nil, fun _ => trivial⟩
    | loop origin args block =>
      have hargs : IsLoopArgs args := hentries (.loop origin args) mem_cons_self
      have hblock := ih (fun e he => hentries e (mem_cons_of_mem _ he))
        (everywhere_of_mem hfree hn)
      rw [settleNode, toValue, toValue, takeStep_loop hargs, takeStep_loop hargs]
      refine follows_looped ?_ (hblock.mono fun e => .of_block hn)
      rcases hargs with rfl | ⟨name, range, rfl⟩
      · exact .inl rfl
      · exact .inr ⟨name, rfl⟩

def moduleOf (flow : List Value) : Value := .obj [("flow", .list flow)]

def resultOf (s : Session) (flow : List Value) (inputs : Env) : Except Error Value :=
  (s.run (runModule (moduleOf flow) (.obj inputs) none none)).1

theorem resultOf_eq (s : Session) (flow : List Value) (inputs : Env) : resultOf s flow inputs =
      ((begun s inputs).run (Run.steps (takeStep Run.depthLimit) flow)).1.map (·.getD .null) := by
  have hsteps : Run.HasSteps (moduleOf flow) flow := ⟨rfl, rfl, rfl, rfl, rfl⟩
  rw [resultOf, run_runModule hsteps, run_bind]
  rcases (begun s inputs).run _ with ⟨e | out, t⟩
  · rfl
  · rfl

theorem resultOf_settled (hbuilt : ∀ e ∈ entriesOf ns, e.IsBuilt)
    (hfree : everywhere movesFreely ns) {s : Session} {inputs : Env}
    (h : resultOf s (toValues ns) inputs = .ok v) :
    resultOf s (toValues (settled ns)) inputs = .ok v ∨
      ∃ e, resultOf s (toValues (settled ns)) inputs = .error e ∧
        FailsPast Run.depthLimit ns e := by
  have hfollows := follows_settled Run.depthLimit hbuilt hfree
  rw [resultOf_eq] at h ⊢
  rcases hrun : (begun s inputs).run (Run.steps (takeStep Run.depthLimit) (toValues ns))
    with ⟨e | _ | w, t⟩
  · rw [hrun] at h
    cases h
  · rw [hrun] at h
    rw [(hfollows.goesOn rfl hrun).2]
    exact .inl h
  · rw [hrun] at h
    rcases hfollows.returns rfl hrun with ⟨u, hu⟩ | ⟨e, u, hu, hfails⟩
    · rw [hu]
      exact .inl h
    · rw [hu]
      exact .inr ⟨e, rfl, hfails⟩

/-- Where a flow as it was built finishes with a result, its canonical form finishes
    with the same result, or fails as steps do that a single `Return` was moved past.
    This holds for flows in which no step changes its repetition and every single
    `Return` moves freely; the nodes of a flow are determined by it. -/
theorem canonical_keeps_result {steps : Value} {flow : List Value}
    (h : buildFlow steps = .ok flow) : (∃ ns : List (Node Unit), flow = toValues ns) ∧
      ∃ canon, canonical flow = .ok canon ∧
        ∀ ns : List (Node Unit), flow = toValues ns → still ns = true →
          everywhere movesFreely ns = true →
          ∀ (s : Session) (inputs : Env) (v : Value), resultOf s flow inputs = .ok v →
            resultOf s canon inputs = .ok v ∨
              ∃ e, resultOf s canon inputs = .error e ∧ FailsPast Run.depthLimit ns e := by
  obtain ⟨ns, rfl, hbuilt⟩ := exists_isBuilt_of_buildFlow h
  obtain ⟨ms, hcanon, _⟩ := canonical_toValues ns
  refine ⟨⟨ns, rfl⟩, toValues ms, hcanon, fun ns' hns hstill hfree s inputs v hv => ?_⟩
  obtain rfl := toValues_injective ns ns' hns
  rw [canonical_of_still hstill, Except.ok.injEq] at hcanon
  rw [← hcanon]
  exact resultOf_settled hbuilt hfree hv

/-! ### Flows with a `Return` that is moved -/

def lineAt (level : Int) (verb text : String) : Value :=
  .obj [("verb", .str verb), ("expr", .str text), ("level", .int level)]

def nameOf (name : String) : Value := .obj [("type", .str "Identifier"), ("name", .str name)]

def returns (name : String) : Statement Unit :=
  ⟨(), stepValue "Return" [("expr", nameOf name)], _, _, rfl, by decide⟩

def shows (name : String) : Statement Unit :=
  ⟨(), stepValue "Show" [("expr", nameOf name)], _, _, rfl, by decide⟩

def makes (name text : String) : Statement Unit := ⟨(), stepValue "Make" [("name", .str name),
    ("expr", .obj [("type", .str "String"), ("value", .str text)])], _, _, rfl, by decide⟩

/-- A repetition of a `Return` and a line after it. -/
def earlyReturn : Value :=
  .list [lineAt 0 "Repeat" "i in a..b", lineAt 1 "Return" "x", lineAt 1 "Show" "y"]

def earlyReturnNodes : List (Node Unit) :=
  [.loop () (.obj [("iter", .str "i"), ("range", .obj [("type", .str "Range"),
    ("start", nameOf "a"), ("end", nameOf "b"), ("inclusive", .bool true)])])
    [.line (returns "x"), .line (shows "y")]]

theorem canonical_keeps_result_earlyReturn :
    let inputs : Env := [("a", .int 1), ("b", .int 2), ("x", .str "r")]
    let s := Session.start .null false [] []
    buildFlow earlyReturn = .ok (toValues earlyReturnNodes) ∧ still earlyReturnNodes = true ∧
      everywhere movesFreely earlyReturnNodes = true ∧
      resultOf s (toValues earlyReturnNodes) inputs = .ok (.str "r") ∧
      ∃ canon, canonical (toValues earlyReturnNodes) = .ok canon ∧
        (resultOf s canon inputs = .ok (.str "r") ∨ ∃ e, resultOf s canon inputs = .error e ∧
            FailsPast Run.depthLimit earlyReturnNodes e) := by
  intro inputs s
  have hbuilt : buildFlow earlyReturn = .ok (toValues earlyReturnNodes) :=
    eq_ok_of_areCopies (by decide +kernel)
  have hstill : still earlyReturnNodes = true := by decide +kernel
  have hfree : everywhere movesFreely earlyReturnNodes = true := by decide +kernel
  have hresult : resultOf s (toValues earlyReturnNodes) inputs = .ok (.str "r") :=
    eq_ok_of_isCopy (by decide +kernel)
  obtain ⟨_, canon, hcanon, hkeeps⟩ := canonical_keeps_result hbuilt
  exact ⟨hbuilt, hstill, hfree, hresult, canon, hcanon,
    hkeeps _ rfl hstill hfree s inputs _ hresult⟩

/-- A `Return`, and after it a line that binds what it returns. -/
def lateMake : Value := .list [lineAt 0 "Return" "x", lineAt 0 "Make" "x = \"b\""]

/-- A `Return` that is moved past such a line returns something else. -/
theorem canonical_changes_result_lateMake : let inputs : Env := [("x", .str "a")]
    let s := Session.start .null false [] []
    ∃ flow canon, buildFlow lateMake = .ok flow ∧ canonical flow = .ok canon ∧
      resultOf s flow inputs = .ok (.str "a") ∧ resultOf s canon inputs = .ok (.str "b") :=
  ⟨[(returns "x").step, (makes "x" "b").step], [(makes "x" "b").step, (returns "x").step],
    eq_ok_of_areCopies (by decide +kernel), eq_ok_of_areCopies (by decide +kernel),
    eq_ok_of_isCopy (by decide +kernel), eq_ok_of_isCopy (by decide +kernel)⟩

end Loom.Flow
