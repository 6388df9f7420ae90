import Loom.Proofs.Running

/-!
# Runs After Other Runs

A session can run one module after another. Its variables and its receipt are made anew at the
start of a run, so the next run comes to what it would come to in a new session, whatever was
run before and however that ended. The one exception is the part of the receipt that tells the
variables at the end: it is written when a run finishes and not emptied when one starts. So a
run that fails leaves there the variables of the last run that did finish.

A request holds what a run can be asked: the module and the inputs are objects, and so are
capabilities.
-/

namespace Loom

structure Request where
  module : Fields Value
  inputs : Fields Value
  enforce : Option Bool
  capabilities : Option (Fields Value)

namespace Request

def run (q : Request) : Run Value :=
  Run.runModule (.obj q.module) (.obj q.inputs) q.enforce (q.capabilities.map .obj)

/-- The request without settings of its own. -/
def plain (q : Request) : Request := { q with enforce := none, capabilities := none }

end Request

namespace Session

/-- A session after some requests, whether they finished or failed. -/
def after (s : Session) (qs : List Request) : Session := qs.foldl (fun s q => (s.run q.run).2) s

def leftBy (s : Session) (env : Fields Value) : List Request → Fields Value
  | [] => env
  | q :: qs =>
    leftBy (s.run q.run).2 (if (s.run q.run).1.isOk then (s.run q.run).2.env else env) qs

def renewed (s : Session) (q : Request) : Session :=
  start ((q.capabilities.map .obj).getD s.capabilities) (q.enforce.getD s.enforce) s.registry
    s.network

/-- Capabilities are an object. They stay one whatever is requested. -/
def HasObject (s : Session) : Prop := ∃ fs, s.capabilities = .obj fs

theorem hasObject_renewed {s : Session} (hs : s.HasObject) (q : Request) : (s.renewed q).HasObject ∧
      (s.renewed q).capabilities = (q.capabilities.map .obj).getD s.capabilities := by
  obtain ⟨fs, hfs⟩ : ∃ fs, (q.capabilities.map Value.obj).getD s.capabilities = .obj fs := by
    cases q.capabilities with
    | none => exact hs
    | some fs => exact ⟨fs, rfl⟩
  have hstart : (Value.obj fs).orElse (.obj []) = .obj fs := by cases fs <;> rfl
  rw [renewed, hfs]
  exact ⟨⟨fs, hstart⟩, hstart⟩

end Session

namespace Run

open Session Law

variable {s : Session}

theorem governs_takeFlow (b : Backdrop) (s : Session) (m : Value) :
    (staying b s.settings).Governs (takeFlow depthLimit m) :=
  relates_lift (quiet_flowOf m) fun _ _ => relates_block fun _ _ v _ =>
    governs_staying b _ depthLimit v

/-- The module of a request, out of its wrapper. -/
def bodyOf (q : Request) : Value :=
  if ((Value.obj q.module).field "module").isObj then (Value.obj q.module).field "module"
  else .obj q.module

def taken (s : Session) (q : Request) : Except Error Outcome × Session :=
  (begun (s.renewed q) q.inputs).run (takeFlow depthLimit (bodyOf q))

/-- What a session has behind it, for one in which nothing happened. -/
def pastOf (s : Session) : Backdrop := { Backdrop.same with
    left := fun _ => s.receipt.env
    printed := (· ++ s.printed)
    printed_cons := fun _ _ => rfl
    fetched := (· ++ s.fetched)
    fetched_cons := fun _ _ => rfl }

theorem run_request (hs : s.HasObject) (q : Request) :
    s.run q.run = finish ((taken s q).1, (pastOf s).behind (taken s q).2) := by
  have hinputs : (Value.obj q.inputs).toFieldsOrNone = .ok q.inputs := by cases q.inputs <;> rfl
  have hbody : unwrap (.obj q.module) = .ok (bodyOf q) := rfl
  have hbegun : begun { s with
      capabilities := (q.capabilities.map .obj).getD s.capabilities
      enforce := q.enforce.getD s.enforce } q.inputs =
        (pastOf s).behind (begun (s.renewed q) q.inputs) := by
    rw [← (hasObject_renewed hs q).2]
    rfl
  have hpast := (governs_takeFlow (pastOf s) _ (bodyOf q) (begun (s.renewed q) q.inputs) rfl).1
  rw [Request.run, runModule, run_bind, run_liftExcept, hbody]
  change Session.run { s with capabilities := _, enforce := _ }
    (liftExcept (Value.obj q.inputs).toFieldsOrNone >>= _) = _
  rw [run_bind, run_liftExcept, hinputs]
  refine (run_moduleWith_eq_finish _ _ _ _).trans (congrArg finish ?_)
  exact (congrArg (Session.run · (takeFlow depthLimit (bodyOf q))) hbegun).trans hpast

/-- The parts of a session after a request: all come from the steps but the variables that the
    receipt tells, which are those of the run only if it finished. -/
theorem run_request_parts (hs : s.HasObject) (q : Request) :
    (s.run q.run).1 = (taken s q).1.map (·.getD .null) ∧ (s.run q.run).2.env = (taken s q).2.env ∧
      (s.run q.run).2.receipt = { (taken s q).2.receipt with
        env := if (taken s q).1.isOk then (taken s q).2.env else s.receipt.env } ∧
      (s.run q.run).2.HasObject := by
  have hobject : (taken s q).2.HasObject := by
    have hsettings := (governs_takeFlow .same _ (bodyOf q) (begun (s.renewed q) q.inputs) rfl).2
    obtain ⟨fs, hfs⟩ := (hasObject_renewed hs q).1
    exact ⟨fs, (congrArg Prod.fst hsettings).trans hfs⟩
  rw [run_request hs, finish]
  cases (taken s q).1.isOk
  · exact ⟨rfl, rfl, rfl, hobject⟩
  · exact ⟨rfl, rfl, rfl, hobject⟩

theorem isOk_run_request (hs : s.HasObject) (q : Request) :
    (s.run q.run).1.isOk = (taken s q).1.isOk := by
  rw [(run_request_parts hs q).1]
  cases (taken s q).1 <;> rfl

theorem receipt_env_after (hs : s.HasObject) (qs : List Request) :
    (s.after qs).receipt.env = s.leftBy s.receipt.env qs ∧ (s.after qs).HasObject := by
  induction qs generalizing s with
  | nil => exact ⟨rfl, hs⟩
  | cons q qs ih =>
    obtain ⟨_, henv, hreceipt, hobject⟩ := run_request_parts hs q
    have htold : (s.run q.run).2.receipt.env =
        if (s.run q.run).1.isOk then (s.run q.run).2.env else s.receipt.env := by
      rw [isOk_run_request hs, henv, hreceipt]
    rw [leftBy, ← htold]
    exact ih hobject

/-- After any requests, a request has the result that it would have in a new session, and the same
    receipt but for one part: if it fails, the variables it tells are those at the end of the last
    request that finished. So the receipt is that of a new session exactly if the request
    finishes, or none finished before that left a variable. -/
theorem receipt_eq_renewed_iff (capabilities : Fields Value) (enforce : Bool)
    (registry : Fields Value) (network : Web.Network) (qs : List Request) (q : Request) :
    let s₀ := start (.obj capabilities) enforce registry network
    let used := (s₀.after qs).run q.run
    let fresh := ((s₀.after qs).renewed q).run q.plain.run
    used.1 = fresh.1 ∧ used.2.receipt = { fresh.2.receipt with
        env := if used.1.isOk then fresh.2.receipt.env else s₀.leftBy [] qs } ∧
      (used.2.receipt = fresh.2.receipt ↔ used.1.isOk = true ∨ s₀.leftBy [] qs = []) := by
  intro s₀ used fresh
  have hs₀ : s₀.HasObject := ⟨capabilities, by cases capabilities <;> rfl⟩
  obtain ⟨hleft, hs⟩ := receipt_env_after hs₀ qs
  obtain ⟨hnew, hsame⟩ := hasObject_renewed hs q
  -- a new session that is made anew is the same one, so both take the same steps in it
  have hrenewed : ((s₀.after qs).renewed q).renewed q.plain = (s₀.after qs).renewed q := by
    change start ((s₀.after qs).renewed q).capabilities _ _ _ = _
    rw [hsame]
    rfl
  have htaken : taken ((s₀.after qs).renewed q) q.plain = taken (s₀.after qs) q := by
    rw [taken, hrenewed]
    rfl
  have hok : used.1.isOk = (taken (s₀.after qs) q).1.isOk := isOk_run_request hs q
  obtain ⟨hused, _, hreceipt, _⟩ := run_request_parts hs q
  obtain ⟨hfresh, _, hnone, _⟩ := run_request_parts hnew q.plain
  rw [htaken] at hfresh hnone
  rw [hleft] at hreceipt
  refine ⟨hused.trans hfresh.symm, ?_⟩
  change used.2.receipt = _ at hreceipt
  change fresh.2.receipt = _ at hnone
  rw [hreceipt, hnone, hok]
  cases (taken (s₀.after qs) q).1.isOk with
  | true => exact ⟨rfl, iff_of_true rfl (.inl rfl)⟩
  | false =>
    refine ⟨rfl, fun h => .inr (congrArg Receipt.env h), ?_⟩
    rintro (h | h)
    · cases h
    · exact congrArg (fun env => { (taken (s₀.after qs) q).2.receipt with env := env }) h

/-- A module that binds `x` and finishes, then one with a verb that does not run. -/
theorem receipt_eq_renewed_iff_failing :
    let binds : Request := ⟨[("flow", .list [.obj [("verb", .str "Make"),
      ("args", .obj [("name", .str "x"), ("value", .int 1)])]])], [], none, none⟩
    let fails : Request := ⟨[("flow", .list [.obj [("verb", .str "Foo")]])], [], none, none⟩
    let s := (start (.obj []) false [] []).after [binds]
    (s.run fails.run).2.receipt ≠ ((s.renewed fails).run fails.plain.run).2.receipt := by
  intro binds fails s h
  rcases (receipt_eq_renewed_iff [] false [] [] [binds] fails).2.2.mp h with hok | hleft
  · exact absurd hok (by decide +kernel)
  · exact absurd (congrArg List.length hleft) (by decide +kernel)

end Run

end Loom
