import Loom.Proofs.Compilation

/-!
# Negated Conditions

A condition of an agent may be negated: the return it guards is for when it does not hold. The
step of such a line asks for an operator that a session does not evaluate. So a run that comes
to one ends there, and nothing else in the steps of an agent is unknown to a session: their
verbs, the names they bind and the other operators are all understood.
-/

namespace Loom

variable {e : RunError}

namespace Value

theorem compareScalars_ne_run (o : Order) (a b : Value) :
    compareScalars o a b ≠ .error (.run e) := by
  unfold compareScalars
  split
  · exact nofun
  · split <;> exact nofun

mutual

theorem compareBy_ne_run (o : Order) (a b : Value) : compareBy o a b ≠ .error (.run e) := by
  unfold compareBy
  split
  · exact compareLists_ne_run o _ _
  · exact compareScalars_ne_run o a b

theorem compareLists_ne_run (o : Order) (xs ys : List Value) :
    compareLists o xs ys ≠ .error (.run e) := by
  unfold compareLists
  split
  · exact nofun
  · exact nofun
  · split
    · exact compareLists_ne_run o _ _
    · exact compareBy_ne_run o _ _

end

end Value

namespace Agent

open Loom.Machine Loom.Session List Run Loom.Agent.Action Value

variable {s : Session} {a : Action} {as : List Action} {depth : Nat}

theorem answer_ne_run (c : Comparison) (left right : Value) :
    c.answer left right ≠ .error (.run e) := by
  have hcompare (o : Value.Order) :
      (compareBy o left right).map bool ≠ .error (.run e) := by
    intro h
    cases hc : compareBy o left right with
    | ok b => rw [hc] at h; cases h
    | error f =>
      rw [hc] at h
      cases h
      exact compareBy_ne_run o left right hc
  cases c with
  | eq | ne => exact nofun
  | lt | le | gt | ge => exact hcompare _

theorem value_ne_run (p : Predicate) (env : Env) : p.value env ≠ .error (.run e) := by
  cases p with
  | holds name => exact nofun
  | compares c left right => exact answer_ne_run c _ _

theorem effect_ne_run (env : Env) (printed : List String) :
    a.effect env printed ≠ .error (.run e) := by
  cases a with
  | chooses negated p value otherwise =>
    rw [effect]
    intro h
    cases hp : p.value env with
    | ok v => rw [hp] at h; cases h
    | error f =>
      rw [hp] at h
      cases h
      exact value_ne_run p env hp
  | _ =>
    intro h
    cases h

theorem eval_negated (env : Env) (p : Predicate) : Expr.eval env (p.condition true) =
      (p.value env).bind fun _ => .error (.run (.unsupportedUnary (.str "NOT"))) := by
  cases p with
  | compares c left right => cases c <;> cases right <;> rfl
  | holds name => rfl

def IsNegated (env : Env) (step : Value) : Prop :=
  ∃ p ∈ stepPredicates step, isNegation p = true ∧ ∃ v, Expr.eval env (p.field "expr") = .ok v

theorem isNegated_chooses {env : Env} {negated : Bool} {p : Predicate} {value : Term}
    {otherwise : Option Term} : IsNegated env (Action.chooses negated p value otherwise).toValue ↔
      negated ∧ ∃ v, p.value env = .ok v := by
  have honly : stepPredicates (chooses negated p value otherwise).toValue =
      [p.condition negated] := by
    cases otherwise <;> rfl
  rw [IsNegated, honly]
  simp only [mem_singleton, exists_eq_left]
  cases negated with
  | true =>
    rw [← eval_predicate]
    exact and_congr_left fun _ => iff_of_true rfl rfl
  | false =>
    refine ⟨fun h => ?_, fun h => absurd h.1 Bool.false_ne_true⟩
    cases p <;> exact absurd h.1 Bool.false_ne_true

theorem run_negated (hs : s.ready) (p : Predicate) (value : Term) (otherwise : Option Term) :
    s.run (takeStep (depth + 2) (Action.chooses true p value otherwise).toValue) =
      ((p.value s.env).bind fun _ => .error (.run (.unsupportedUnary (.str "NOT"))), s) := by
  have hstep : ∃ rest, takeStep (depth + 2) (chooses true p value otherwise).toValue =
      evaluate (p.condition true) >>= rest := ⟨_, rfl⟩
  obtain ⟨rest, hstep⟩ := hstep
  rw [hstep, run_bind, evaluate, run_bind, run_get]
  dsimp only
  rw [if_pos hs, run_liftExcept, eval_negated]
  cases p.value s.env <;> rfl

theorem not_isNegated (h : a.isPlain) (env : Env) : ¬IsNegated env a.toValue := by
  cases a with
  | chooses negated p value otherwise =>
    rw [isNegated_chooses]
    rintro ⟨rfl, _⟩
    cases h
  | _ =>
    rintro ⟨_, hp, _⟩
    cases hp

theorem step_fails_iff (hs : s.ready) (a : Action) :
    (∃ t, s.run (takeStep (depth + 2) a.toValue) = (.error (.run e), t)) ↔
      e = .unsupportedUnary (.str "NOT") ∧ IsNegated s.env a.toValue := by
  cases hplain : a.isPlain with
  | true =>
    refine iff_of_false ?_ fun h => not_isNegated hplain s.env h.2
    rintro ⟨t, ht⟩
    have hperforms := performs_action hs depth hplain
    cases heffect : a.effect s.env s.printed with
    | error f =>
      rw [heffect] at hperforms
      obtain ⟨u, hu⟩ := hperforms
      cases ht.symm.trans hu
      exact effect_ne_run s.env s.printed heffect
    | ok r =>
      rw [heffect] at hperforms
      obtain ⟨u, hu, _⟩ := hperforms
      cases ht.symm.trans hu
  | false =>
    cases a with
    | chooses negated p value otherwise =>
      cases negated with
      | false => cases hplain
      | true =>
        rw [isNegated_chooses, run_negated hs]
        cases hp : p.value s.env with
        | error f =>
          refine iff_of_false ?_ ?_
          · rintro ⟨t, ht⟩
            cases ht
            exact value_ne_run p s.env hp
          · rintro ⟨_, _, v, hv⟩
            cases hv
        | ok v =>
          refine ⟨?_, ?_⟩
          · rintro ⟨t, ht⟩
            cases ht
            exact ⟨rfl, rfl, v, rfl⟩
          · rintro ⟨rfl, _⟩
            exact ⟨s, rfl⟩
    | _ => cases hplain

theorem ready_of_step {t : Session} {out : Outcome} (hs : s.ready)
    (h : s.run (takeStep (depth + 2) a.toValue) = (.ok out, t)) : t.ready := by
  cases hplain : a.isPlain with
  | true =>
    have hperforms := performs_action hs depth hplain
    cases heffect : a.effect s.env s.printed with
    | error f =>
      rw [heffect] at hperforms
      obtain ⟨u, hu⟩ := hperforms
      cases h.symm.trans hu
    | ok r =>
      rw [heffect] at hperforms
      obtain ⟨u, hu, hafter⟩ := hperforms
      cases h.symm.trans hu
      exact hafter.ready hs
  | false =>
    cases a with
    | chooses negated p value otherwise =>
      cases negated with
      | false => cases hplain
      | true =>
        rw [run_negated hs] at h
        cases hp : p.value s.env <;> rw [hp] at h <;> cases h
    | _ => cases hplain

/-! ### Runs -/

/-- Steps are taken up to one with a negated condition, without a return. -/
def MeetsNegation (depth : Nat) (s : Session) (steps : List Value) : Prop :=
  ∃ before step after t, steps = before ++ step :: after ∧
    s.run (Run.steps (takeStep depth) before) = (.ok none, t) ∧ IsNegated t.env step

theorem meetsNegation_cons {v : Value} {vs : List Value} :
    MeetsNegation depth s (v :: vs) ↔ IsNegated s.env v ∨
      ∃ t, s.run (takeStep depth v) = (.ok none, t) ∧ MeetsNegation depth t vs := by
  constructor
  · rintro ⟨before, step, after, t, hsplit, hrun, hneg⟩
    cases before with
    | nil =>
      cases hsplit
      cases hrun
      exact .inl hneg
    | cons b before =>
      cases hsplit
      rw [steps_cons] at hrun
      rcases exists_of_run_andThen hrun with ⟨hsome, _⟩ | ⟨u, hfirst, hrest⟩
      · cases hsome
      · exact .inr ⟨u, hfirst, before, step, after, t, rfl, hrest, hneg⟩
  · rintro (hneg | ⟨u, hfirst, before, step, after, t, rfl, hrest, hneg⟩)
    · exact ⟨[], v, vs, s, rfl, rfl, hneg⟩
    · refine ⟨v :: before, step, after, t, rfl, ?_, hneg⟩
      rw [steps_cons, run_andThen, hfirst]
      exact hrest

theorem steps_fail_iff (hs : s.ready) (as : List Action) :
    (∃ t, s.run (Run.steps (takeStep (depth + 2)) (as.map Action.toValue)) = (.error (.run e), t)) ↔
      e = .unsupportedUnary (.str "NOT") ∧ MeetsNegation (depth + 2) s (as.map Action.toValue) := by
  induction as generalizing s with
  | nil =>
    refine iff_of_false ?_ ?_
    · rintro ⟨t, ht⟩
      cases ht
    · rintro ⟨_, before, step, after, t, hsplit, _⟩
      cases before <;> cases hsplit
  | cons a as ih =>
    have hstep := @step_fails_iff e s depth hs a
    rw [map_cons, meetsNegation_cons, steps_cons, run_andThen]
    -- what comes of the first step decides which of the two sides is at issue
    rcases hrun : s.run (takeStep (depth + 2) a.toValue) with ⟨f | _ | v, t⟩
    · rw [hrun] at hstep
      have hnext : ¬∃ u, ((.error f, t) : Except Error Outcome × Session) = (.ok none, u) ∧
          MeetsNegation (depth + 2) u (as.map toValue) := by
        rintro ⟨u, hu, _⟩
        cases hu
      rw [or_iff_left hnext]
      exact hstep
    · have hfirst : ¬(e = .unsupportedUnary (.str "NOT") ∧ IsNegated s.env a.toValue) := by
        intro h
        obtain ⟨u, hu⟩ := hstep.mpr h
        cases hrun.symm.trans hu
      rw [ih (ready_of_step hs hrun)]
      constructor
      · rintro ⟨he, h⟩
        exact ⟨he, .inr ⟨t, rfl, h⟩⟩
      · rintro ⟨he, hneg | ⟨u, hu, h⟩⟩
        · exact absurd ⟨he, hneg⟩ hfirst
        · cases hu
          exact ⟨he, h⟩
    · refine iff_of_false ?_ ?_
      · rintro ⟨u, hu⟩
        cases hu
      · rintro ⟨he, hneg | ⟨u, hu, _⟩⟩
        · obtain ⟨u, hu⟩ := hstep.mpr ⟨he, hneg⟩
          cases hrun.symm.trans hu
        · cases hu

/-- A run of a module of an agent fails in a way of runs if and only if it comes to a negated
    condition, and then because of the operator. -/
theorem fails_iff_meets_negation {comparatives : Bool} {text : String} {ms : List Value}
    (hms : compileModules comparatives ((readModules text).map ModuleOutline.toValue) = .ok ms)
    {m : Value} (hm : m ∈ ms) (s : Session) (inputs : Env) (e : RunError) :
    (∃ t, s.run (runModule m (.obj inputs) none none) = (.error (.run e), t)) ↔
      e = .unsupportedUnary (.str "NOT") ∧ ∃ steps, m.field "flow" = .list steps ∧
        MeetsNegation Run.depthLimit (begun s inputs) steps := by
  obtain ⟨as, hsteps⟩ := exists_of_compileModules hms hm
  have hflow : m.field "flow" = .list (as.map toValue) := by
    rw [field, hsteps.flow]
    rfl
  have hfails : (∃ t, (begun s inputs).run (Run.steps (takeStep Run.depthLimit)
      (as.map toValue)) = (.error (.run e), t)) ↔ _ := @steps_fail_iff e _ 398 rfl as
  have hsame : (∃ steps, list (as.map toValue) = .list steps ∧
      MeetsNegation Run.depthLimit (begun s inputs) steps) ↔
      MeetsNegation Run.depthLimit (begun s inputs) (as.map toValue) := by
    simp
  rw [run_runModule hsteps, run_bind, hflow, hsame]
  refine Iff.trans ?_ hfails
  rcases (begun s inputs).run (Run.steps (takeStep Run.depthLimit) (as.map toValue)) with
    ⟨f | out, t⟩
  · constructor <;> rintro ⟨u, hu⟩ <;> cases hu <;> exact ⟨t, rfl⟩
  · constructor <;> rintro ⟨u, hu⟩ <;> cases hu

/-- An agent with a condition that is negated and no comparison. -/
def doorkeeper : String :=
  "I. Door module\nA. Flow:\n1. Make x say 'in'\n2. Unless open then return x\n"

/-- Whether a run ended because of an operator. -/
def isUnsupported : Except Error Value → Bool
  | .error (.run (.unsupportedUnary (.str op))) => op == "NOT"
  | _ => false

theorem eq_of_isUnsupported {r : Except Error Value} (h : isUnsupported r) :
    r = .error (.run (.unsupportedUnary (.str "NOT"))) := by
  unfold isUnsupported at h
  split at h
  · rw [eq_of_beq h]
  · cases h

theorem fails_iff_meets_negation_doorkeeper :
    ∃ m ms steps, compileModules true ((readModules doorkeeper).map ModuleOutline.toValue) =
        .ok (m :: ms) ∧ m.field "flow" = .list steps ∧
      MeetsNegation Run.depthLimit (begun (Session.start .null false [] []) []) steps := by
  have hfails : (compileModules true ((readModules doorkeeper).map
      ModuleOutline.toValue)).toOption.any (fun ms => ms.head?.any fun m => isUnsupported
        ((Session.start .null false [] []).run (runModule m (.obj []) none none)).1) = true := by
    decide +kernel
  rcases hms : compileModules true ((readModules doorkeeper).map ModuleOutline.toValue) with
    _ | _ | ⟨m, ms⟩
  · rw [hms] at hfails
    cases hfails
  · rw [hms] at hfails
    cases hfails
  · rw [hms] at hfails
    have hrun := eq_of_isUnsupported hfails
    obtain ⟨_, steps, hflow, hmeets⟩ := (fails_iff_meets_negation hms mem_cons_self
      (Session.start .null false [] []) [] _).mp ⟨_, Prod.ext hrun rfl⟩
    exact ⟨m, ms, steps, rfl, hflow, hmeets⟩

end Agent

end Loom
