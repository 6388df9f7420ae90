import Loom.Proofs.Confinement

/-!
# Runs of a Flow

A run of a module is a run of the steps of its flow, from a session in which the
inputs are the variables. Steps are taken one after the other, up to the first
that returns, so that a run of two lists is a run of the first and, unless it
returns, of the second.
-/

namespace Loom.Run

open Session Value

variable {m : Value} {vs : List Value} (take : Value → Run Outcome)

def andThen (c d : Run Outcome) : Run Outcome := do
  match ← c with
  | some v => pure (some v)
  | none => d

theorem run_andThen (s : Session) (c d : Run Outcome) : s.run (andThen c d) = match s.run c with
      | (.ok (some v), t) => (.ok (some v), t)
      | (.ok none, t) => t.run d
      | (.error e, t) => (.error e, t) := by
  rw [andThen, run_bind]
  rcases s.run c with ⟨_ | _ | _, _⟩ <;> rfl

theorem exists_of_run_andThen {s t : Session} {c d : Run Outcome} {r : Outcome}
    (h : s.run (andThen c d) = (.ok r, t)) : (r.isSome ∧ s.run c = (.ok r, t)) ∨
      ∃ u, s.run c = (.ok none, u) ∧ u.run d = (.ok r, t) := by
  rw [run_andThen] at h
  rcases hc : s.run c with ⟨e | _ | v, u⟩ <;> rw [hc] at h
  · cases h
  · exact .inr ⟨u, rfl, h⟩
  · cases h
    exact .inl ⟨rfl, rfl⟩

theorem steps_cons (v : Value) (vs : List Value) :
    steps take (v :: vs) = andThen (take v) (steps take vs) :=
  rfl

theorem ext_run {α : Type} {c d : Run α} (h : ∀ s : Session, s.run c = s.run d) : c = d := funext h

theorem andThen_none (c : Run Outcome) : andThen c (pure none) = c := by
  refine ext_run fun s => ?_
  rw [run_andThen]
  rcases s.run c with ⟨_ | _ | _, _⟩ <;> rfl

theorem andThen_assoc (c d e : Run Outcome) :
    andThen (andThen c d) e = andThen c (andThen d e) := by
  refine ext_run fun s => ?_
  rw [run_andThen, run_andThen, run_andThen]
  rcases s.run c with ⟨_ | _ | v, t⟩
  · rfl
  · exact (run_andThen t d e).symm
  · rfl

theorem steps_append (vs ws : List Value) :
    steps take (vs ++ ws) = andThen (steps take vs) (steps take ws) := by
  induction vs with
  | nil => rfl
  | cons v vs ih => rw [List.cons_append, steps_cons, steps_cons, ih, andThen_assoc]

theorem block_of_list (vs : List Value) : block take (Step.blockOf (.list vs)) = steps take vs := by
  cases vs <;> rfl

/-- A module that keeps its steps in its flow. Its other fields do not matter to a
    run. -/
structure HasSteps (m : Value) (vs : List Value) : Prop where
  isObj : m.isObj
  flow : m.field? "flow" = some (.list vs)
  wrapped : m.field? "module" = none
  elsewhere : m.field? "steps" = none ∧ m.field? "block" = none

theorem HasSteps.flowOf (hm : HasSteps m vs) : flowOf m = .ok (.list vs) := by
  have hflow : m.field "flow" = .list vs := by rw [field, hm.flow]; rfl
  have hsteps : m.field "steps" = .null := by rw [field, hm.elsewhere.1]; rfl
  have hblock : m.fieldD "block" (.obj []) = .obj [] := by rw [fieldD, hm.elsewhere.2]; rfl
  rw [Run.flowOf, hflow, hsteps, hblock]
  cases vs <;> rfl

theorem HasSteps.unwrap (hm : HasSteps m vs) : unwrap m = .ok m := by
  cases m with
  | obj fs =>
    have hmodule : Fields.get? fs "module" = none := hm.wrapped
    rw [Run.unwrap, lookup, lookup?, hmodule]
    rfl
  | _ => exact absurd hm.isObj Bool.false_ne_true

def begun (s : Session) (inputs : Env) : Session :=
  { s with env := inputs, ready := true, receipt := s.receipt.restart }

def takeFlow (depth : Nat) (m : Value) : Run Outcome := do
  block (takeStep depth) (Step.blockOf (← liftExcept (flowOf m)))

/-- What is left to do once the steps are taken. -/
def finish (r : Except Error Outcome × Session) : Except Error Value × Session :=
  (r.1.map (·.getD .null),
    if r.1.isOk then { r.2 with receipt := { r.2.receipt with env := r.2.env } } else r.2)

theorem run_moduleWith_eq_finish (depth : Nat) (s : Session) (m : Value) (inputs : Env) :
    s.run (moduleWith (takeStep depth) m inputs) = finish ((begun s inputs).run (takeFlow depth m)) := by
  change (begun s inputs).run (liftExcept (Run.flowOf m) >>= _) = _
  rw [takeFlow, run_bind, run_bind, run_liftExcept]
  cases Run.flowOf m with
  | error e => rfl
  | ok flow =>
    dsimp only
    rw [run_bind]
    rcases (begun s inputs).run (block (takeStep depth) (Step.blockOf flow)) with ⟨_ | _, _⟩
    · rfl
    · rfl

theorem run_moduleWith (hm : HasSteps m vs) (take : Value → Run Outcome) (s : Session)
    (inputs : Env) : s.run (moduleWith take m inputs) = (begun s inputs).run (do
      let out ← steps take vs
      change fun s => { s with receipt := { s.receipt with env := s.env } }
      pure (out.getD .null)) := by
  change (begun s inputs).run (liftExcept (Run.flowOf m) >>= _) = _
  rw [run_bind, run_liftExcept, hm.flowOf]
  dsimp only
  rw [block_of_list]

theorem run_runModule (hm : HasSteps m vs) (s : Session) (inputs : Env) :
    s.run (runModule m (.obj inputs) none none) = (begun s inputs).run (do
      let out ← steps (takeStep depthLimit) vs
      change fun s => { s with receipt := { s.receipt with env := s.env } }
      pure (out.getD .null)) := by
  have hinputs : (obj inputs).toFieldsOrNone = .ok inputs := by cases inputs <;> rfl
  rw [runModule, run_bind, run_liftExcept, hm.unwrap]
  change s.run (liftExcept (obj inputs).toFieldsOrNone >>= _) = _
  rw [run_bind, run_liftExcept, hinputs]
  exact run_moduleWith hm (takeStep depthLimit) { s with env := inputs } inputs

end Loom.Run
