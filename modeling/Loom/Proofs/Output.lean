import Loom.Proofs.Denial
import Loom.Proofs.Isolation

/-!
# What a Run Prints

A `Show` records a value, prints its text and logs it, and nothing else that a run can survive
prints or logs. So the log of a run that finishes is what its receipt shows, and the lines it
printed are the texts of these values, in the same order.

A module that is called prints among the lines of its caller and logs in a receipt of its own,
so this is said of runs that come to no call of a module that is known.
-/

namespace Loom.Run

open Session Law

variable {s : Session} {st : Step} {take : Value → Run Outcome}
  {run other : Value → Fields Value → Run Value}

/-- A step calls a module that the session knows. -/
def resolves (s : Session) (v : Value) : Bool := match Step.ofValue v with
  | .ok st => st.verb == "Call" && !(st.arg "op").isText titleOp && st.args.has "module" &&
      !st.args.has "url" && !st.args.has "http" && !st.args.has "op" &&
      !(calleeOf s (st.arg "module")).isNull
  | .error _ => false

theorem callStep_congr (hnull : (calleeOf s (st.arg "module")).isNull) (lineage : Lineage) :
    s.run (callStep run st lineage) = s.run (callStep other st lineage) := by
  have hends := callStep_cases run s st lineage
  have hother := callStep_cases other s st lineage
  generalize s.run (callStep run st lineage) = r at hends ⊢
  generalize s.run (callStep other st lineage) = r' at hother ⊢
  cases hends <;> cases hother <;> simp_all

theorem step_congr {v : Value} (h : resolves s v = false) :
    s.run (step take run v) = s.run (step take other v) := by
  rw [step, step, run_bind, run_bind, run_liftExcept]
  unfold resolves at h
  cases hst : Step.ofValue v with
  | error e => rfl
  | ok st =>
    rw [hst] at h
    dsimp only at h ⊢
    split
    case h_7 hverb =>
      unfold anyCall
      split
      · rfl
      · split
        · refine callStep_congr ?_ _
          simp_all
        · rfl
    all_goals rfl

def printing (before : List String) : Law where
  holds e s := e = none → s.receipt.logs = s.receipt.shown ∧
    s.printed = (s.receipt.shown.map Value.display).reverse ++ before
  faults _ _ := (nomatch ·)
  binds _ _ h := h
  records := by
    intro s entry lineage hentry h _
    obtain ⟨hlogs, hprinted⟩ := h rfl
    rw [Receipt.shown_addStep, hentry, if_neg Bool.false_ne_true, List.append_nil]
    exact ⟨hlogs, hprinted⟩
  calls _ h := h
  shows := by
    intro s lineage v h
    refine ⟨fun _ _ => (nomatch ·), fun line hline _ => ?_⟩
    obtain ⟨hlogs, hprinted⟩ := h rfl
    have hshown : ((s.receipt.addStep lineage (showEntry v)).addLog v).shown =
        s.receipt.shown ++ [v] := Receipt.shown_addStep _ _ _
    have htext : line = v.display := by
      unfold Value.shown at hline
      split at hline
      · cases hline
      · exact (Except.ok.inj hline).symm
    refine ⟨(congrArg (· ++ [v]) hlogs).trans hshown.symm, ?_⟩
    rw [hshown, hprinted, htext, List.map_append, List.reverse_append]
    rfl
  fetches _ h := h
  refuses _ _ _ _ := (nomatch ·)

/-- Taking a step, with a failure in the place of calls of known modules. -/
def takeUncalled : Nat → Value → Run Outcome :=
  divert (fun s v => resolves s v = true) fun _ => throw .tooDeep

/-- The induction is on the depth. A call that resolves is diverted, and any other may be taken
    as one that would fail. -/
theorem governs_printing (before : List String) (depth : Nat) (v : Value) :
    (printing before).Governs (takeUncalled depth v) := by
  induction depth generalizing v with
  | zero => exact governs_throw rfl
  | succ depth ih =>
    refine relates_get fun s hs => ?_
    change (printing before).RelatesAt s (if resolves s v = true then _ else _)
      (if resolves s v = true then _ else _)
    cases hcall : resolves s v with
    | true => exact governs_throw rfl s hs
    | false =>
      refine ⟨rfl, ?_⟩
      rw [if_neg Bool.false_ne_true, step_congr hcall]
      have hcalls : (printing before).Calls fun _ _ => throw .tooDeep :=
        fun _ _ _ _ _ _ => (nomatch ·)
      exact (relatesAt_step (fun _ => trivial) (fun _ _ t _ => ih t) hcalls
        (fun _ _ _ => governs_askStep (fun _ _ => trivial) (fun _ _ h => h) s hs)
        (fun _ _ _ => (nomatch ·)) hs).2

theorem printing_moduleWith (s : Session) (depth : Nat) (m : Value) (inputs : Fields Value) :
    (printing s.printed).RelatesAt s (moduleWith (takeUncalled depth) m inputs)
      (moduleWith (takeUncalled depth) m inputs) :=
  relatesAt_moduleWith (fun _ => ⟨rfl, rfl⟩) (fun _ _ _ _ v _ => governs_printing _ depth v)
    fun _ h => h

/-- A session in which the settings and the inputs of a run are in force. -/
def entered (s : Session) (enforce : Option Bool) (capabilities : Option Value)
    (inputs : Fields Value) : Session :=
  { s with
    capabilities := capabilities.getD s.capabilities
    enforce := enforce.getD s.enforce
    env := inputs }

section

variable {t : Session} {m inputs r : Value} {enforce : Option Bool} {capabilities : Option Value}

theorem exists_of_runModule (h : s.run (runModule m inputs enforce capabilities) = (.ok r, t)) :
    ∃ body fs, unwrap m = .ok body ∧ inputs.toFieldsOrNone = .ok fs ∧
      (entered s enforce capabilities fs).run (moduleWith (takeStep depthLimit) body fs) =
        (.ok r, t) := by
  obtain ⟨body, hbody, h⟩ := exists_of_run_lift h
  obtain ⟨fs, hfs, h⟩ := exists_of_run_lift h
  exact ⟨body, fs, hbody, hfs, h⟩

/-- A run that finishes and comes to no call of a known module logged the values that its
    receipt shows, and printed their texts. -/
theorem output_is_shown (h : s.run (runModule m inputs enforce capabilities) = (.ok r, t))
    (hcalls : ∀ body fs, unwrap m = .ok body → inputs.toFieldsOrNone = .ok fs →
      Avoids (fun s v => resolves s v = true) depthLimit body fs
        (entered s enforce capabilities fs)) : t.receipt.logs = t.receipt.shown ∧
      t.output = s.output ++ String.join (t.receipt.shown.map fun v => v.display ++ "\n") := by
  obtain ⟨body, fs, hbody, hfs, hrun⟩ := exists_of_runModule h
  obtain ⟨_, hends⟩ := printing_moduleWith (entered s enforce capabilities fs) depthLimit body fs
  rw [takeUncalled, hcalls body fs hbody hfs fun _ => throw .tooDeep, hrun] at hends
  obtain ⟨hlogs, hprinted⟩ := hends rfl
  refine ⟨hlogs, ?_⟩
  change t.printed = _ ++ s.printed at hprinted
  rw [output, output, hprinted, List.reverse_append, List.reverse_reverse, List.map_append,
    List.map_map]
  exact String.join_append ..

end

/-- A loop that shows a truth value twice, in a session that knows another module. -/
theorem output_is_shown_loop : let known : Value := .obj [("flow", .list [])]
    let s : Session := Session.start .null false [("Known", known)] []
    let m : Value := .obj [("flow", .list [
      .obj [("verb", .str "Repeat"), ("args", .obj [("iterator", .str "x"),
        ("iterable", .list [.int 1, .int 2])]), ("block", .list [
          .obj [("verb", .str "Show"), ("args", .obj [("text", .bool true)])]])]])]
    ∃ t, s.run (runModule m (.obj []) none none) = (.ok .null, t) ∧
      t.receipt.logs = t.receipt.shown ∧ t.receipt.logs.length = 2 ∧ t.output = s.output ++
        String.join (t.receipt.shown.map fun v => v.display ++ "\n") := by
  intro known s m
  have hrun : s.run (runModule m (.obj []) none none) = (.ok .null, _) := rfl
  have havoids : Avoids (fun s v => resolves s v = true) depthLimit m [] (entered s none none []) :=
    fun other => rfl
  obtain ⟨hlogs, houtput⟩ := output_is_shown hrun fun body fs hbody hfs => by
    obtain rfl : m = body := Except.ok.inj hbody
    obtain rfl : [] = fs := Except.ok.inj hfs
    exact havoids
  exact ⟨_, hrun, hlogs, rfl, houtput⟩

end Loom.Run
