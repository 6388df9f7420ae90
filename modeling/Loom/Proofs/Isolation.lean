import Loom.Proofs.Running

/-!
# Calls of Modules

A module that is called runs in a session of its own, whose variables are the inputs of the call
and no others. Of that session the caller sees the result, what was printed and fetched, and the
questions that were asked, which go into the entry of the call. So whatever the module does, and
whichever modules it calls in turn, the caller's variables stay but for the one that takes the
result, and its receipt gains the entry and an edge of the call graph. If the module fails, only
the edge is left.
-/

namespace Loom.Run

open Session Law

variable {α : Type} {x : Session} {st : Step} {run : Value → Fields Value → Run Value}

/-- A computation changes nothing, and comes to the same whatever the receipt is. -/
def Steady (c : Run α) : Prop :=
  ∀ (s : Session) (r : Receipt), ({ s with receipt := r } : Session).run c =
    ((s.run c).1, { s with receipt := r })

theorem Steady.run_eq {c : Run α} (h : Steady c) (s : Session) : s.run c = ((s.run c).1, s) :=
  h s s.receipt

theorem steady_bind {β : Type} {c : Run α} {f : α → Run β} (hc : Steady c)
    (hf : ∀ a, Steady (f a)) : Steady (c >>= f) := by
  intro s r
  rw [run_bind, run_bind, hc s r, hc.run_eq s]
  cases (s.run c).1 with
  | ok a => exact hf a s r
  | error e => rfl

theorem steady_argument (v : Value) : Steady (argument v) := by
  intro s r
  unfold argument evaluate
  split
  · rw [run_bind, run_bind, run_get, run_get]
    dsimp only
    split
    · rw [run_liftExcept, run_liftExcept]
    · rfl
  · rfl

theorem steady_callInputs (given : Fields Value) : Steady (callInputs given) := by
  induction given with
  | nil => exact fun _ _ => rfl
  | cons i rest ih =>
    exact steady_bind (steady_argument i.2) fun _ => steady_bind ih fun _ _ _ => rfl

def inputsIn (x : Session) (st : Step) : Except Error (Fields Value) :=
  match (st.arg "inputs").orElse (.obj []) with
  | .obj given => (x.run (callInputs given)).1
  | v => .error (.noMember v.kind.name "items")

/-- The session of a caller that has noted which module it calls. -/
def calling (x : Session) (st : Step) : Session :=
  { x with receipt := x.receipt.addCall (.obj [("from", .null), ("to", st.arg "module")]) }

def callEntry (st : Step) (inputs : Fields Value) (asked : List Value) : Fields Value :=
  [("event", .str "call"), ("module", st.arg "module"), ("inputs", .obj inputs),
    ("inputsResolved", .obj (resolvedInputs inputs asked)), ("verb", .str "Call")]

/-- The variables of a caller with the result of a call. -/
def bound (env : Env) (target result : Value) : Env := match target with
  | .str name => env.put name result
  | _ => env

theorem run_bindArg (x : Session) (st : Step) (name : String) (v : Value) :
    x.run (bindArg st name v) = (.ok (), { x with env := bound x.env (st.arg name) v }) := by
  unfold bindArg bound
  cases st.arg name <;> rfl

inductive CallEnds (run : Value → Fields Value → Run Value) (x : Session) (st : Step)
    (lineage : Lineage) : Except Error Outcome × Session → Prop
  | unread {e : Error} (h : inputsIn x st = .error e) : CallEnds run x st lineage
      (.error e, calling x st)
  | unknown {inputs : Fields Value} (h : inputsIn x st = .ok inputs)
      (hnull : (calleeOf x (st.arg "module")).isNull) : CallEnds run x st lineage
      (.ok none, { calling x st with
        receipt := (calling x st).receipt.addStep lineage (callEntry st inputs []) })
  | raises {inputs : Fields Value} {e : Error} {inner : Session} (h : inputsIn x st = .ok inputs)
      (hknown : (calleeOf x (st.arg "module")).isNull = false)
      (hrun : (calleeSession x).run (run (calleeOf x (st.arg "module")) inputs) =
        (.error e, inner)) : CallEnds run x st lineage
      (.error e, { calling x st with printed := inner.printed, fetched := inner.fetched })
  | returns {inputs : Fields Value} {result : Value} {inner : Session}
      (h : inputsIn x st = .ok inputs) (hknown : (calleeOf x (st.arg "module")).isNull = false)
      (hrun : (calleeSession x).run (run (calleeOf x (st.arg "module")) inputs) =
        (.ok result, inner)) : CallEnds run x st lineage
      (.ok none, { calling x st with
        env := bound x.env (st.arg "result") result
        receipt := (calling x st).receipt.addStep lineage (callEntry st inputs inner.receipt.ask)
        printed := inner.printed
        fetched := inner.fetched })

theorem callStep_cases (run : Value → Fields Value → Run Value) (x : Session) (st : Step)
    (lineage : Lineage) : CallEnds run x st lineage (x.run (callStep run st lineage)) := by
  rw [callStep, run_bind]
  change CallEnds run x st lineage ((calling x st).run _)
  dsimp only
  split
  · rename_i given hgiven
    have hin : inputsIn x st = (x.run (callInputs given)).1 := by rw [inputsIn, hgiven]
    have hnoted : (calling x st).run (callInputs given) = (inputsIn x st, calling x st) :=
      (steady_callInputs given x _).trans (congrArg (·, calling x st) hin.symm)
    rw [run_bind, hnoted]
    cases hinputs : inputsIn x st with
    | error e => exact .unread hinputs
    | ok inputs =>
      change CallEnds run x st lineage ((calling x st).run
        (if (calleeOf x (st.arg "module")).isNull then _ else
          inCallee run (calleeOf x (st.arg "module")) inputs >>= _))
      cases hnull : (calleeOf x (st.arg "module")).isNull with
      | true => exact .unknown hinputs hnull
      | false =>
        rw [if_neg Bool.false_ne_true, run_bind]
        rcases hrun : (calleeSession x).run (run (calleeOf x (st.arg "module")) inputs)
          with ⟨e | result, inner⟩
        · rw [run_inCallee (s := calling x st) hrun]
          exact .raises hinputs hnull hrun
        · rw [run_inCallee (s := calling x st) hrun]
          change CallEnds run x st lineage (Session.run _ (bindArg st "result" result >>= _))
          rw [run_bind, run_bindArg]
          exact .returns hinputs hnull hrun
  · rename_i hgiven
    refine .unread ?_
    unfold inputsIn
    cases hinputs : (st.arg "inputs").orElse (.obj []) with
    | obj given => exact absurd hinputs (hgiven given)
    | _ => rfl

theorem exists_of_run_called {depth : Nat} {m result : Value} {inputs : Fields Value} {t : Session}
    (h : x.run (called depth m inputs) = (.ok result, t)) :
    ∃ body out u, unwrap m = .ok body ∧ (begun x inputs).run (takeFlow depth body) = (.ok out, u) ∧
      result = out.getD .null := by
  obtain ⟨body, hbody, h⟩ := exists_of_run_lift h
  have h := (run_moduleWith_eq_finish depth x body inputs).symm.trans h
  rcases hrun : (begun x inputs).run (takeFlow depth body) with ⟨e | out, u⟩
  · rw [hrun] at h
    cases h
  · rw [hrun] at h
    exact ⟨body, out, u, hbody, hrun, (Except.ok.inj (congrArg Prod.fst h)).symm⟩

/-- What a call that completes changes besides variables: one entry and one edge are added. -/
structure GainsCall (x t : Session) : Prop where
  steps : ∃ entry, t.receipt.steps = x.receipt.steps ++ [entry] ∧ entry.field "event" = .str "call"
  callGraph : ∃ edge, t.receipt.callGraph = x.receipt.callGraph ++ [edge]
  ask : t.receipt.ask = x.receipt.ask
  logs : t.receipt.logs = x.receipt.logs
  registry : t.registry = x.registry

/-- A call that completes goes on. If the module is known, its steps were taken in a session with
    the inputs of the call as its variables, and the caller's variables are as before but for the
    one that takes the result; if not, all are as before. The receipt gains an entry and an edge.
    A call whose module fails leaves variables, steps, questions and logs as before. -/
theorem call_is_isolated {depth : Nat} {v : Value} {t : Session} {r : Except Error Outcome}
    (hv : Step.ofValue v = .ok st) (hcall : IsModuleCall st)
    (hrun : x.run (takeStep (depth + 1) v) = (r, t)) :
    (r.isOk = true → r = .ok none ∧ GainsCall x t ∧ ∃ inputs, inputsIn x st = .ok inputs ∧
      ((calleeOf x (st.arg "module")).isNull = true ∧ t.env = x.env ∨
        (calleeOf x (st.arg "module")).isNull = false ∧ ∃ body out u,
          unwrap (calleeOf x (st.arg "module")) = .ok body ∧
          (begun (calleeSession x) inputs).run (takeFlow depth body) = (.ok out, u) ∧
          t.env = bound x.env (st.arg "result") (out.getD .null))) ∧
    ∀ inputs e inner, inputsIn x st = .ok inputs → (calleeOf x (st.arg "module")).isNull = false →
      (calleeSession x).run (called depth (calleeOf x (st.arg "module")) inputs) =
        (.error e, inner) → r = .error e ∧ t.env = x.env ∧ t.receipt.steps = x.receipt.steps ∧
        t.receipt.ask = x.receipt.ask ∧ t.receipt.logs = x.receipt.logs := by
  have hcases := callStep_cases (called depth) x st (Lineage.ofStep v)
  rw [← hcall.run_step hv (takeStep depth), ← takeStep_succ, hrun] at hcases
  have hentry (inputs : Fields Value) (asked : List Value) :
      (Value.obj ((Lineage.ofStep v).mark (callEntry st inputs asked))).field "event" =
        .str "call" := Lineage.field_mark _ _ (by decide)
  cases hcases with
  | unread h =>
    exact ⟨(nomatch ·), fun _ _ _ hinputs => nomatch hinputs.symm.trans h⟩
  | unknown h hnull =>
    refine ⟨fun _ => ⟨rfl, ⟨⟨_, rfl, hentry _ _⟩, ⟨_, rfl⟩, rfl, rfl, rfl⟩, _, h,
      .inl ⟨hnull, rfl⟩⟩, fun _ _ _ _ hknown => ?_⟩
    exact absurd (hnull.symm.trans hknown) (by decide)
  | raises h hknown hraised =>
    refine ⟨(nomatch ·), fun inputs e inner hinputs _ hrun => ?_⟩
    obtain rfl := Except.ok.inj (hinputs.symm.trans h)
    obtain ⟨he, _⟩ := Prod.mk.inj (hraised.symm.trans hrun)
    exact ⟨congrArg _ (Except.error.inj he), rfl, rfl, rfl, rfl⟩
  | returns h hknown hreturned =>
    obtain ⟨body, out, u, hbody, htaken, rfl⟩ := exists_of_run_called hreturned
    refine ⟨fun _ => ⟨rfl, ⟨⟨_, rfl, hentry _ _⟩, ⟨_, rfl⟩, rfl, rfl, rfl⟩, _, h,
      .inr ⟨hknown, body, out, u, hbody, htaken, rfl⟩⟩, fun inputs e inner hinputs _ hraised => ?_⟩
    obtain rfl := Except.ok.inj (hinputs.symm.trans h)
    exact nomatch (Prod.mk.inj (hreturned.symm.trans hraised)).1

/-- A module that doubles its input, called with a variable of the caller. -/
theorem call_is_isolated_double :
    let name (s : String) : Value := .obj [("type", .str "Identifier"), ("name", .str s)]
    let double : Value := .obj [("flow", .list [.obj [("verb", .str "Make"),
      ("args", .obj [("name", .str "y"), ("expr", .int 3)])],
      .obj [("verb", .str "Return"), ("args", .obj [("expr", .obj [("type", .str "Binary"),
        ("op", .str "+"), ("left", name "n"), ("right", name "n")])])]])]
    let x : Session := { Session.start .null false [("Double", double)] [] with
      env := [("k", .int 2), ("y", .int 1)], ready := true }
    let v : Value := .obj [("verb", .str "Call"), ("args", .obj [("module", .str "Double"),
      ("inputs", .obj [("n", name "k")]), ("result", .str "y")])]
    (x.run (takeStep 2 v)).1.isOk = true ∧ GainsCall x (x.run (takeStep 2 v)).2 ∧
      (x.run (takeStep 2 v)).2.env = [("k", .int 2), ("y", .int 4)] := by
  intro name double x v
  have hv : Step.ofValue v = .ok ⟨"Call", [("module", .str "Double"),
    ("inputs", .obj [("n", name "k")]), ("result", .str "y")], "Call"⟩ := by rfl
  have hrun : x.run (takeStep 2 v) = ((x.run (takeStep 2 v)).1, (x.run (takeStep 2 v)).2) := rfl
  have hok : (x.run (takeStep 2 v)).1.isOk = true := by rfl
  exact ⟨hok, ((call_is_isolated hv ⟨rfl, rfl, by decide⟩ hrun).1 hok).2.1, by rfl⟩

end Loom.Run
