import Loom.Proofs.AgentAction

/-!
# Compiled Modules Keep Their Meaning

A module of an agent can be run step by step, or compiled to stack code and run on
the machine. Both ways come to the same result, print the same lines and leave the
same variables, or both fail, as long as no condition is negated: the machine
negates what a session refuses to evaluate.

The two are compared through `effect`, which says in terms of the variables and
the printed lines alone what an action does. A session that takes the action's
step has that effect, and so has a machine that runs the action's code wherever
the code stands. Jumps only go over the steps that a condition guards, which
always return, so a flow of actions is followed by one induction over its actions.
-/

namespace Loom.Agent

open Loom.Text Loom.Machine Loom.Session List Run Loom.Agent.Action Value

variable (depth place : Nat)

/-! ### Code -/

def Term.code : Term → Code
  | text s => [.push (.str s)]
  | number v => [.push v]
  | name s => [.load (.str s)]

def Predicate.code : Predicate → Code
  | compares c left right => .load (.str left) :: (right.code ++ [.compare c])
  | holds name => [.load (.str name)]

def Term.returnCode (t : Term) : Code := t.code ++ [.ret]

def Action.code (place : Nat) : Action → Code
  | makes name _ value => value.code ++ [.store (.str name)]
  | shows text => [.push (.str text), .display]
  | returns value => value.returnCode
  | chooses _ p value otherwise =>
    p.code ++ .jumpIfFalse (place + p.code.length + 1 + value.returnCode.length) ::
      (value.returnCode ++ (otherwise.toList.flatMap Term.returnCode))

def codes (place : Nat) : List Action → Code
  | [] => []
  | a :: as => a.code place ++ codes (place + (a.code place).length) as

/-- An action whose condition is not negated, if it has one. -/
def Action.isPlain : Action → Bool
  | chooses negated _ _ _ => !negated
  | _ => true

theorem exprCode_term (t : Term) : exprCode t.toValue = .ok t.code := by
  cases t <;> rfl

theorem exprCode_predicate (p : Predicate) : exprCode p.toValue = .ok p.code := by
  cases p with
  | compares c left right => cases c <;> cases right <;> rfl
  | holds name => rfl

theorem stepCode_return (inner : Nat → Value → Except Error Code) (place : Nat) (t : Term) :
    stepCode inner place (returnStep t.toValue) = .ok t.returnCode := by
  have hstep : stepCode inner place (returnStep t.toValue)
      = (do pure ((← exprCode t.toValue) ++ [.ret])) := rfl
  rw [hstep, exprCode_term]
  rfl

theorem stepsCode_return (t : Term) :
    stepsCode (depth + 1) place (.list [returnStep t.toValue]) = .ok t.returnCode := by
  rw [stepsCode]
  change listCode (stepsCode depth) place [returnStep t.toValue] = _
  rw [listCode, stepCode_return]
  change Except.ok (t.returnCode ++ []) = _
  rw [append_nil]

theorem stepCode_choose (p : Predicate) (value : Term) (otherwise : Option Term) :
    stepCode (stepsCode (depth + 1)) place (Action.chooses false p value otherwise).toValue =
      .ok ((Action.chooses false p value otherwise).code place) := by
  cases otherwise with
  | none =>
    have hstep : stepCode (stepsCode (depth + 1)) place
        (chooses false p value none).toValue = (do
          let test ← exprCode p.toValue
          let body := place + test.length + 1
          let taken ← stepsCode (depth + 1) body (.list [returnStep value.toValue])
          pure (test ++ .jumpIfFalse (body + taken.length) :: taken)) := rfl
    rw [hstep, exprCode_predicate]
    change (stepsCode (depth + 1) _ _ >>= _) = _
    rw [stepsCode_return, code, Option.toList_none, flatMap_nil, append_nil]
    rfl
  | some other =>
    have hstep : stepCode (stepsCode (depth + 1)) place
        (chooses false p value (some other)).toValue = (do
          let test ← exprCode p.toValue
          let body := place + test.length + 1
          let taken ← stepsCode (depth + 1) body (.list [returnStep value.toValue])
          let code := test ++ .jumpIfFalse (body + taken.length) :: taken
          pure (code ++ (← stepsCode (depth + 1) (body + taken.length)
            (.list [returnStep other.toValue])))) := rfl
    rw [hstep, exprCode_predicate]
    change (stepsCode (depth + 1) _ _ >>= _) = _
    rw [stepsCode_return]
    change (stepsCode (depth + 1) _ _ >>= _) = _
    rw [stepsCode_return, code, Option.toList_some, flatMap_singleton,
      ← cons_append, ← append_assoc]
    rfl

theorem stepCode_action {a : Action} (h : a.isPlain) :
    stepCode (stepsCode (depth + 1)) place a.toValue = .ok (a.code place) := by
  cases a with
  | makes name named value =>
    have hstep : stepCode (stepsCode (depth + 1)) place (makes name named value).toValue
        = (do pure ((← exprCode value.toValue) ++ [.store (.str name)])) := rfl
    rw [hstep, exprCode_term]
    rfl
  | shows text => rfl
  | returns value => exact stepCode_return _ _ value
  | chooses negated p value otherwise =>
    cases negated with
    | true => cases h
    | false => exact stepCode_choose depth place p value otherwise

variable {as : List Action}

theorem listCode_actions (h : ∀ a ∈ as, a.isPlain) :
    listCode (stepsCode (depth + 1)) place (as.map Action.toValue) = .ok (codes place as) := by
  induction as generalizing place with
  | nil => rfl
  | cons a as ih =>
    rw [forall_mem_cons] at h
    rw [map_cons, listCode, stepCode_action depth place h.1]
    change (listCode (stepsCode (depth + 1)) _ _ >>= _) = _
    rw [ih _ h.2]
    rfl

theorem moduleCode_of_hasSteps {m : Value}
    (hm : Run.HasSteps m (as.map Action.toValue)) (h : ∀ a ∈ as, a.isPlain) :
    moduleCode m = .ok (codes 0 as) := by
  cases m with
  | obj fs =>
    have hlookup : (obj fs).lookupD "flow" (.list [])
        = .ok (.list (as.map toValue)) := by
      have hflow : Fields.get? fs "flow" = some (.list (as.map toValue)) := hm.flow
      rw [lookupD, lookup?, hflow]
      rfl
    rw [moduleCode, hlookup, depth]
    exact listCode_actions (depthFields fs) 0 h
  | _ => exact absurd hm.isObj Bool.false_ne_true

/-! ### Effects -/

def Term.value (env : Env) : Term → Value
  | text s => .str s
  | number v => v
  | name s => env.getD s .null

def Predicate.value (env : Env) : Predicate → Except Error Value
  | compares c left right => c.answer (env.getD left .null) (right.value env)
  | holds name => .ok (env.getD name .null)

/-- What an action returns, if it does, and the variables and printed lines after
    it. -/
def Action.effect (env : Env) (printed : List String) :
    Action → Except Error (Option Value × Env × List String)
  | makes name _ value => .ok (none, env.put name (value.value env), printed)
  | shows text => .ok (none, env, text :: printed)
  | returns value => .ok (some (value.value env), env, printed)
  | chooses _ p value otherwise => (p.value env).map fun v =>
    (if v.truthy then some (value.value env) else otherwise.map (Term.value env), env, printed)

/-- The effect of actions one after the other, up to the first that returns. -/
def effects (env : Env) (printed : List String) :
    List Action → Except Error (Option Value × Env × List String)
  | [] => .ok (none, env, printed)
  | a :: as =>
    match a.effect env printed with
    | .ok (none, env, printed) => effects env printed as
    | ending => ending

/-! ### Sessions -/

variable {s : Session} {env : Env} {printed : List String} {a : Action} {as : List Action}
  {m : Value} {code : Code} {place : Nat} {stack : List Value} {e : Ending}

theorem eval_term (env : Env) (t : Term) : Expr.eval env t.toValue = .ok (t.value env) := by
  cases t <;> rfl

theorem eval_predicate (env : Env) (p : Predicate) : Expr.eval env p.toValue = p.value env := by
  cases p with
  | compares c left right => cases c <;> cases right <;> rfl
  | holds name => rfl

theorem run_argument_term (hs : s.ready) (t : Term) :
    s.run (argument t.toValue) = (.ok (t.value s.env), s) := by
  have hargument : argument t.toValue = evaluate t.toValue := by cases t <;> rfl
  rw [hargument, evaluate, run_bind, run_get]
  dsimp only
  rw [if_pos hs, run_liftExcept, eval_term]

theorem run_evaluate_predicate (hs : s.ready) (p : Predicate) :
    s.run (evaluate p.toValue) = (p.value s.env, s) := by
  rw [evaluate, run_bind, run_get]
  dsimp only
  rw [if_pos hs, run_liftExcept, eval_predicate]

/-- A session after an action: apart from the variables and the printed lines, only
    its receipt has changed. -/
def After (s : Session) (env : Env) (printed : List String) (t : Session) : Prop :=
  ∃ receipt, t = { s with env, printed, receipt }

/-- A computation has an effect in a session. -/
def Performs (s : Session) (c : Run Run.Outcome) :
    Except Error (Option Value × Env × List String) → Prop
  | .ok (out, env, printed) => ∃ t, s.run c = (.ok out, t) ∧ After s env printed t
  | .error e => ∃ t, s.run c = (.error e, t)

namespace After

variable {s t : Session} {env : Env} {printed : List String}

theorem ready (h : After s env printed t) (hs : s.ready) : t.ready := by
  obtain ⟨receipt, rfl⟩ := h
  exact hs

theorem env_eq (h : After s env printed t) : t.env = env := by
  obtain ⟨receipt, rfl⟩ := h
  rfl

theorem printed_eq (h : After s env printed t) : t.printed = printed := by
  obtain ⟨receipt, rfl⟩ := h
  rfl

theorem refl (s : Session) : After s s.env s.printed s := ⟨s.receipt, rfl⟩

end After

variable {effect : Except Error (Option Value × Env × List String)} {c : Run Run.Outcome}

theorem Performs.of_after {t : Session} {d : Run Run.Outcome} (h : Performs t d effect)
    (ht : After s env printed t) (hrun : s.run c = t.run d) : Performs s c effect := by
  match effect with
  | .error e =>
    obtain ⟨u, hu⟩ := h
    exact ⟨u, hrun.trans hu⟩
  | .ok (out, env', printed') =>
    obtain ⟨u, hu, receipt, rfl⟩ := h
    obtain ⟨_, rfl⟩ := ht
    exact ⟨_, hrun.trans hu, receipt, rfl⟩

def recorded (s : Session) (lineage : Lineage) (entry : Fields Value) : Session :=
  { s with receipt := s.receipt.addStep lineage entry }

theorem Performs.of_recorded {lineage : Lineage} {entry : Fields Value}
    (h : Performs (recorded s lineage entry) c effect) :
    Performs s (do record lineage entry; c) effect :=
  h.of_after ⟨_, rfl⟩ rfl

theorem performs_makes (hs : s.ready) (depth : Nat) (name : String)
    (named : name.isEmpty = false) (value : Term) :
    Performs s (takeStep (depth + 1) (Action.makes name named value).toValue)
      ((Action.makes name named value).effect s.env s.printed) := by
  have hstep : takeStep (depth + 1) (makes name named value).toValue =
      if name.isEmpty then throw (.run .missingName) else (do
        let v ← argument value.toValue
        bindName name v
        record (.ofStep (makes name named value).toValue) [("event", .str "make"),
          ("name", .str name), ("value", v), ("verb", .str "Make")]
        pure none) := by
    cases value <;> rfl
  rw [effect, Performs, hstep, named, if_neg Bool.false_ne_true, run_bind, run_argument_term hs]
  exact ⟨_, rfl, _, rfl⟩

theorem performs_shows (s : Session) (depth : Nat) (text : String) :
    Performs s (takeStep (depth + 1) (Action.shows text).toValue)
      ((Action.shows text).effect s.env s.printed) :=
  ⟨_, rfl, _, rfl⟩

theorem performs_returns (hs : s.ready) (depth : Nat) (value : Term) :
    Performs s (takeStep (depth + 1) (Action.returns value).toValue)
      ((Action.returns value).effect s.env s.printed) := by
  have hstep : takeStep (depth + 1) (returns value).toValue = (do
        let v ← argument value.toValue
        record (.ofStep (returns value).toValue) [("event", .str "return"),
          ("value", v), ("verb", .str "Return")]
        pure (some v)) := by
    cases value <;> rfl
  rw [effect, Performs, hstep, run_bind, run_argument_term hs]
  exact ⟨_, rfl, _, rfl⟩

theorem performs_branch (hs : s.ready) (depth : Nat) {branch : Value} (value : Term)
    (hbranch : branch.field "steps" = .list [returnStep value.toValue]) :
    Performs s (branchBlock (takeStep (depth + 1)) branch)
      (.ok (some (value.value s.env), s.env, s.printed)) := by
  obtain ⟨t, hrun, ht⟩ := performs_returns hs depth value
  refine ⟨t, ?_, ht⟩
  have hblock : branchBlock (takeStep (depth + 1)) branch =
      Run.steps (takeStep (depth + 1)) [(returns value).toValue] := by
    rw [branchBlock, hbranch]
    rfl
  rw [hblock, Run.steps, run_bind, hrun]
  rfl

def otherBranches (otherwise : Option Term) : List Value :=
  if (otherwise.toList.map fun t => returnStep t.toValue).isEmpty then []
  else [.obj [("otherwise", .bool true),
    ("steps", .list (otherwise.toList.map fun t => returnStep t.toValue))]]

theorem performs_otherBranches (hs : s.ready) (depth : Nat) (lineage : Lineage)
    (otherwise : Option Term) :
    Performs s (Run.branches (takeStep (depth + 1)) lineage 1 (otherBranches otherwise))
      (.ok (otherwise.map (Term.value s.env), s.env, s.printed)) := by
  cases otherwise with
  | none => exact ⟨s, rfl, s.receipt, rfl⟩
  | some value =>
    let branch : Value := .obj [("otherwise", .bool true),
      ("steps", .list [returnStep value.toValue])]
    have hsteps : branch.field "steps" = .list [returnStep value.toValue] := rfl
    obtain ⟨_, hrun, receipt, rfl⟩ := performs_branch hs depth value hsteps
    have hbranches := run_bind s (branchBlock (takeStep (depth + 1)) branch) fun out => do
      record lineage [("event", .str "choose"), ("predicateTrace", .list []),
        ("selected", selection 1 "otherwise"), ("verb", .str "Choose")]
      pure out
    rw [hrun] at hbranches
    exact ⟨_, hbranches, _, rfl⟩

/-- What a session records of a condition. -/
def chosenEntry (p : Predicate) (v selected : Value) : Fields Value :=
  [("event", .str "choose"), ("predicateTrace", .list [.obj
      [("expr", traceOf p.toValue), ("value", .bool v.truthy)]]),
    ("verb", .str "Choose"), ("rawVerb", .null), ("selected", selected)]

theorem performs_chooses (hs : s.ready) (depth : Nat) (p : Predicate) (value : Term)
    (otherwise : Option Term) :
    Performs s (takeStep (depth + 2) (Action.chooses false p value otherwise).toValue)
      ((Action.chooses false p value otherwise).effect s.env s.printed) := by
  let lineage := Lineage.ofStep (chooses false p value otherwise).toValue
  let branch : Value := .obj [("when", p.toValue), ("steps", .list [returnStep value.toValue])]
  have hsteps : branch.field "steps" = .list [returnStep value.toValue] := rfl
  -- recording a condition changes the receipt only, so the branches start as if at `s`
  have htaken (v : Value) := (performs_branch (s := recorded s lineage
    (chosenEntry p v (selection 0 "when"))) hs depth value hsteps).of_recorded
  have hother (v : Value) := (performs_otherBranches (s := recorded s lineage
    (chosenEntry p v .null)) hs depth lineage otherwise).of_recorded
  have hstep : takeStep (depth + 2) (chooses false p value otherwise).toValue = (do
      let v ← evaluate p.toValue
      if v.truthy then
        record lineage (chosenEntry p v (selection 0 "when"))
        branchBlock (takeStep (depth + 1)) branch
      else
        record lineage (chosenEntry p v .null)
        Run.branches (takeStep (depth + 1)) lineage 1 (otherBranches otherwise)) := rfl
  rw [effect]
  cases hvalue : p.value s.env with
  | error e =>
    refine ⟨s, ?_⟩
    rw [hstep, run_bind, run_evaluate_predicate hs, hvalue]
  | ok v =>
    by_cases hv : v.truthy = true
    · rw [Except.map, if_pos hv]
      refine (htaken v).of_after (.refl s) ?_
      rw [hstep, run_bind, run_evaluate_predicate hs, hvalue]
      exact congrArg s.run (if_pos hv)
    · rw [Except.map, if_neg hv]
      refine (hother v).of_after (.refl s) ?_
      rw [hstep, run_bind, run_evaluate_predicate hs, hvalue]
      exact congrArg s.run (if_neg hv)

theorem performs_action (hs : s.ready) (depth : Nat) (ha : a.isPlain) :
    Performs s (takeStep (depth + 2) a.toValue) (a.effect s.env s.printed) := by
  cases a with
  | makes name named value => exact performs_makes hs (depth + 1) name named value
  | shows text => exact performs_shows s (depth + 1) text
  | returns value => exact performs_returns hs (depth + 1) value
  | chooses negated p value otherwise =>
    cases negated with
    | true => cases ha
    | false => exact performs_chooses hs depth p value otherwise

theorem performs_actions (hs : s.ready) (depth : Nat) (has : ∀ a ∈ as, a.isPlain) :
    Performs s (Run.steps (takeStep (depth + 2)) (as.map Action.toValue))
      (effects s.env s.printed as) := by
  induction as generalizing s with
  | nil => exact ⟨s, rfl, s.receipt, rfl⟩
  | cons a as ih =>
    rw [forall_mem_cons] at has
    have hfirst := performs_action hs depth has.1
    rw [effects, map_cons, Run.steps]
    match heffect : a.effect s.env s.printed with
    | .error e =>
      rw [heffect] at hfirst
      obtain ⟨t, hrun⟩ := hfirst
      exact ⟨t, by rw [run_bind, hrun]⟩
    | .ok (some v, env, printed) =>
      rw [heffect] at hfirst
      obtain ⟨t, hrun, ht⟩ := hfirst
      exact ⟨t, by rw [run_bind, hrun]; rfl, ht⟩
    | .ok (none, env, printed) =>
      rw [heffect] at hfirst
      obtain ⟨t, hrun, ht⟩ := hfirst
      have hrest := ih (ht.ready hs) has.2
      rw [ht.env_eq, ht.printed_eq] at hrest
      exact hrest.of_after ht (by rw [run_bind, hrun])

/-! ### Machines -/

/-- The ending of a machine that has an effect and stops. -/
def endingOf : Except Error (Option Value × Env × List String) → Ending
  | .ok (out, env, printed) => .stopped (out.getD .null) env printed
  | .error _ => .failed

variable {t : Term}

theorem ends_term (h : CodeAt code place t.code)
    (hend : Ends code ⟨place + t.code.length, t.value env :: stack, env, printed⟩ e) :
    Ends code ⟨place, stack, env, printed⟩ e := by
  cases t with
  | text s | number v | name s => exact ends_of_move h rfl hend

theorem ends_return (h : CodeAt code place t.returnCode) (stack : List Value) (env : Env)
    (printed : List String) :
    Ends code ⟨place, stack, env, printed⟩ (.stopped (t.value env) env printed) := by
  refine ends_term h.left ?_
  exact ends_of_last (s := ⟨_, _, env, printed⟩) h.right rfl

variable {p : Predicate}

theorem ends_predicate (h : CodeAt code place p.code) (hend : match p.value env with
      | .ok v => Ends code ⟨place + p.code.length, v :: stack, env, printed⟩ e
      | .error _ => e = .failed) : Ends code ⟨place, stack, env, printed⟩ e := by
  cases p with
  | holds name => exact ends_of_move h rfl hend
  | compares c left right =>
    have hright := h.tail
    refine ends_of_move h rfl (ends_term hright.left ?_)
    have hexec : (State.mk (place + 1 + right.code.length)
        (right.value env :: env.getD left .null :: stack) env printed).exec (.compare c) =
        State.pushing _ stack (c.answer (env.getD left .null) (right.value env)) := rfl
    rw [Predicate.value] at hend
    cases hanswer : c.answer (env.getD left .null) (right.value env) with
    | error err =>
      rw [hanswer] at hend hexec
      rw [hend]
      exact ends_of_last hright.right hexec
    | ok v =>
      rw [hanswer] at hend hexec
      refine ends_of_move hright.right hexec ?_
      have hlength : place + (Predicate.compares c left right).code.length =
          place + 1 + right.code.length + 1 := by
        rw [Predicate.code, length_cons, length_append, length_singleton]
        omega
      rwa [hlength] at hend

theorem ends_choose {negated : Bool} {value : Term} {otherwise : Option Term}
    (h : CodeAt code place ((Action.chooses negated p value otherwise).code place))
    (hend : match (Action.chooses negated p value otherwise).effect env printed with
      | .ok (none, env', printed') =>
        Ends code ⟨place + ((Action.chooses negated p value otherwise).code place).length,
          stack, env', printed'⟩ e
      | effect => e = endingOf effect) : Ends code ⟨place, stack, env, printed⟩ e := by
  refine ends_predicate h.left ?_
  have hjump := h.right
  rw [effect] at hend
  cases hvalue : p.value env with
  | error err =>
    rw [hvalue] at hend
    exact hend
  | ok v =>
    rw [hvalue] at hend
    dsimp only [Except.map] at hend ⊢
    by_cases hv : v.truthy = true
    · -- the guarded return follows the jump
      rw [if_pos hv] at hend
      rw [hend]
      refine ends_of_move hjump (congrArg Move.next (if_pos hv)) ?_
      exact ends_return hjump.tail.left stack env printed
    · -- the jump goes over it
      rw [if_neg hv] at hend
      refine ends_of_move hjump (congrArg Move.next (if_neg hv)) ?_
      have hother := hjump.tail.right
      cases otherwise with
      | none =>
        have hlength : place + ((chooses negated p value none).code place).length =
            place + p.code.length + 1 + value.returnCode.length := by
          rw [Action.code, length_append, length_cons, length_append,
            Option.toList_none, flatMap_nil, length_nil]
          omega
        rw [hlength] at hend
        exact hend
      | some other =>
        rw [hend]
        exact ends_return hother.left stack env printed

theorem ends_action (h : CodeAt code place (a.code place)) (hend : match a.effect env printed with
      | .ok (none, env', printed') =>
        Ends code ⟨place + (a.code place).length, stack, env', printed'⟩ e
      | effect => e = endingOf effect) : Ends code ⟨place, stack, env, printed⟩ e := by
  cases a with
  | makes name named value =>
    refine ends_term h.left (ends_of_move h.right rfl ?_)
    rwa [Action.code, length_append, length_singleton, ← Nat.add_assoc] at hend
  | shows text => exact ends_of_move h rfl (ends_of_move h.tail rfl hend)
  | returns value =>
    rw [hend]
    exact ends_return h stack env printed
  | chooses negated p value otherwise => exact ends_choose h hend

theorem ends_codes (h : CodeAt code place (codes place as))
    (hlast : code.length = place + (codes place as).length) (stack : List Value) (env : Env)
    (printed : List String) :
    Ends code ⟨place, stack, env, printed⟩ (endingOf (effects env printed as)) := by
  induction as generalizing place env printed with
  | nil => exact ends_offEnd (by rw [hlast, codes, length_nil]; exact Nat.le_refl _)
  | cons a as ih =>
    rw [codes, length_append, ← Nat.add_assoc] at hlast
    refine ends_action h.left ?_
    rw [effects]
    match a.effect env printed with
    | .error e => rfl
    | .ok (some v, env', printed') => rfl
    | .ok (none, env', printed') => exact ih h.right hlast env' printed'

/-! ### Modules -/

def stepPredicates (step : Value) : List Value := match (step.field "args").field "branches" with
  | .list branches => branches.filterMap (·.field? "when")
  | _ => []

def predicatesOf (m : Value) : List Value := match m.field "flow" with
  | .list steps => steps.flatMap stepPredicates
  | _ => []

def isNegation (v : Value) : Bool := (v.field "type").isText "Unary" && (v.field "op").isText "NOT"

theorem isPlain_of_stepPredicates (h : ∀ v ∈ stepPredicates a.toValue, isNegation v = false) :
    a.isPlain := by
  cases a with
  | chooses negated p value otherwise =>
    cases negated with
    | false => rfl
    | true =>
      have hmem : p.condition true ∈
          stepPredicates (chooses true p value otherwise).toValue := by
        cases otherwise <;> exact mem_cons_self
      exact nomatch h _ hmem
  | _ => rfl

theorem isPlain_of_predicatesOf (hm : Run.HasSteps m (as.map Action.toValue))
    (h : ∀ v ∈ predicatesOf m, isNegation v = false) : ∀ a ∈ as, a.isPlain := by
  intro a ha
  refine isPlain_of_stepPredicates fun v hv => h v ?_
  rw [predicatesOf, field, hm.flow]
  exact mem_flatMap.mpr ⟨a.toValue, mem_map_of_mem ha, hv⟩

def endingOfRun : Except Error Value × Session → Ending
  | (.ok v, s) => .stopped v s.env s.printed
  | (.error _, _) => .failed

theorem endingOfRun_runModule (hm : Run.HasSteps m (as.map Action.toValue))
    (has : ∀ a ∈ as, a.isPlain) (s : Session) (inputs : Env) :
    endingOfRun (s.run (runModule m (.obj inputs) none none)) =
      endingOf (effects inputs s.printed as) := by
  have hrun : Performs (begun s inputs)
      (Run.steps (takeStep Run.depthLimit) (as.map toValue))
      (effects inputs s.printed as) := performs_actions rfl 398 has
  rw [run_runModule hm, run_bind]
  match heffects : effects inputs s.printed as with
  | .error e =>
    rw [heffects] at hrun
    obtain ⟨t, hrun⟩ := hrun
    rw [hrun]
    rfl
  | .ok (out, env, printed) =>
    rw [heffects] at hrun
    obtain ⟨t, hrun, ht⟩ := hrun
    rw [hrun, endingOf, ← ht.env_eq, ← ht.printed_eq]
    rfl

/-- A module of an agent without negated conditions has code, and on the machine
    the code comes to the ending that a run of the module comes to, and to no
    other: the same result, variables and printed lines, or a failure. -/
theorem compiled_simulates_runModule {comparatives : Bool} {text : String} {ms : List Value}
    (hms : compileModules comparatives ((readModules text).map ModuleOutline.toValue) = .ok ms)
    {m : Value} (hm : m ∈ ms) (hplain : ∀ p ∈ predicatesOf m, isNegation p = false)
    (network : Web.Network) (inputs : Env) :
    ∃ code, moduleCode m = .ok code ∧ ∀ e, Ends code (State.start inputs) e ↔
      e = endingOfRun ((Session.start .null false [] network).run
        (Run.runModule m (.obj inputs) none none)) := by
  obtain ⟨as, hsteps⟩ := exists_of_compileModules hms hm
  have has := isPlain_of_predicatesOf hsteps hplain
  have hall : CodeAt (codes 0 as) 0 (codes 0 as) := List.prefix_refl _
  have hends := ends_codes hall (Nat.zero_add _).symm [] inputs []
  refine ⟨codes 0 as, moduleCode_of_hasSteps hsteps has, fun e => ?_⟩
  rw [endingOfRun_runModule hsteps has]
  constructor
  · exact fun he => he.unique hends
  · rintro rfl
    exact hends

/-- An agent that greets, with a condition and what happens otherwise. -/
def greeter : String :=
  "I. Desk module\nA. Flow:\n1. Make x say 'hi'\n2. If y is 'b' then return x\n" ++
    "3. Otherwise return y\n"

/-- Whether the first module has conditions, none of them negated. -/
def startsPlain : Except Error (List Value) → Bool
  | .ok (m :: _) => !(predicatesOf m).isEmpty && (predicatesOf m).all (!isNegation ·)
  | _ => false

theorem exists_of_startsPlain {r : Except Error (List Value)} (h : startsPlain r) :
    ∃ m ms, r = .ok (m :: ms) ∧ predicatesOf m ≠ [] ∧
      ∀ p ∈ predicatesOf m, isNegation p = false := by
  rcases r with _ | _ | ⟨m, ms⟩
  · cases h
  · cases h
  · rw [startsPlain, Bool.and_eq_true, all_eq_true] at h
    exact ⟨m, ms, rfl, by simpa using h.1, fun p hp => by simpa using h.2 p hp⟩

theorem compiled_simulates_runModule_greeter :
    ∃ ms m code, compileModules true ((readModules greeter).map ModuleOutline.toValue) = .ok ms ∧
      m ∈ ms ∧ predicatesOf m ≠ [] ∧ (∀ p ∈ predicatesOf m, isNegation p = false) ∧
      moduleCode m = .ok code ∧ ∀ e, Ends code (State.start [("y", .str "c")]) e ↔
        e = endingOfRun ((Session.start .null false [] []).run
          (Run.runModule m (.obj [("y", .str "c")]) none none)) := by
  have hcompiled : startsPlain (compileModules true ((readModules greeter).map
      ModuleOutline.toValue)) = true := by decide +kernel
  obtain ⟨m, ms, hms, hsome, hplain⟩ := exists_of_startsPlain hcompiled
  obtain ⟨code, hcode⟩ := compiled_simulates_runModule hms List.mem_cons_self hplain []
    [("y", .str "c")]
  exact ⟨_, m, code, hms, List.mem_cons_self, hsome, hplain, hcode⟩

end Loom.Agent
