import Loom.Proofs.Provenance

/-!
# Steps That Fail

A step without steps inside it evaluates, looks up, checks and fetches first. What it binds and
records comes last, and that cannot fail. So when such a step fails the variables, the entries
of the receipt and the questions are those from before the step. A module that was called and
failed had variables and a receipt of its own.

What may be left behind is an edge of the call graph, the log of a refusal, and what was printed
and fetched on the way.
-/

namespace Loom.Run

open Session Law

variable {α β : Type} {c : Run α} {f : α → Run β}

def kept (s : Session) : Env × List Value × List Value := (s.env, s.receipt.steps, s.receipt.ask)

/-- A computation that leaves it alone however it ends. -/
def Spares (c : Run α) : Prop := ∀ s : Session, kept (s.run c).2 = kept s

def Finishes (c : Run α) : Prop := ∀ s : Session, ∃ a t, s.run c = (.ok a, t)

def Careful (c : Run α) : Prop :=
  ∀ (s t : Session) (e : Error), s.run c = (.error e, t) → kept t = kept s

theorem Spares.careful (h : Spares c) : Careful c := by
  intro s t e hrun
  have hkept := h s
  rwa [hrun] at hkept

theorem Finishes.careful (h : Finishes c) : Careful c := by
  intro s t e hrun
  obtain ⟨a, u, hok⟩ := h s
  cases hok.symm.trans hrun

theorem finishes_change (f : Session → Session) (a : α) : Finishes (do change f; pure a) :=
  fun s => ⟨a, f s, rfl⟩

theorem finishes_bindArg (st : Step) (name : String) (v : Value) : Finishes (bindArg st name v) :=
  fun s => ⟨(), _, run_bindArg s st name v⟩

theorem finishes_bind (hc : Finishes c) (hf : ∀ a, Finishes (f a)) : Finishes (c >>= f) := by
  intro s
  obtain ⟨a, t, hrun⟩ := hc s
  rw [run_bind, hrun]
  exact hf a t

theorem careful_bind (hc : Spares c) (hf : ∀ a, Careful (f a)) : Careful (c >>= f) := by
  intro s t e hrun
  rw [run_bind] at hrun
  have hkept := hc s
  rcases hstart : s.run c with ⟨_ | a, u⟩ <;> rw [hstart] at hrun hkept
  · cases hrun
    exact hkept
  · exact (hf a u t e hrun).trans hkept

theorem Careful.thenFinishes (hc : Careful c) (hf : ∀ a, Finishes (f a)) : Careful (c >>= f) := by
  intro s t e hrun
  rw [run_bind] at hrun
  rcases hstart : s.run c with ⟨_ | a, u⟩ <;> rw [hstart] at hrun
  · cases hrun
    exact hc _ _ _ hstart
  · obtain ⟨_, _, hok⟩ := hf a u
    cases hok.symm.trans hrun

/-! ### Reading -/

theorem Steady.spares (h : Steady c) : Spares c :=
  fun s => congrArg (fun r => kept r.2) (h.run_eq s)

theorem spares_liftExcept (r : Except Error α) : Spares (liftExcept r) :=
  fun s => congrArg (fun r => kept r.2) (run_liftExcept s r)

theorem spares_bind (hc : Spares c) (hf : ∀ a, Spares (f a)) : Spares (c >>= f) := by
  intro s
  have hkept := hc s
  rw [run_bind]
  generalize s.run c = r at hkept ⊢
  rcases r with ⟨_ | a, t⟩
  · exact hkept
  · exact (hf a t).trans hkept

theorem spares_evaluate (fs : Fields Value) : Spares (evaluate (.obj fs)) :=
  (steady_argument (.obj fs)).spares

theorem spares_addressOf (v : Value) : Spares (addressOf v) := by
  unfold addressOf
  split
  · refine spares_bind (spares_evaluate _) fun w => ?_
    split
    · exact fun _ => rfl
    · exact spares_liftExcept _
  · intro s
    rw [run_bind, run_get]
    dsimp only
    split <;> rfl
  · exact fun _ => rfl

theorem spares_checkFetch (url : String) : Spares (checkFetch url) := by
  intro s
  have hcases := checkFetch_cases s url
  generalize s.run (checkFetch url) = r at hcases ⊢
  cases hcases <;> rfl

theorem spares_fetch (url : String) (limit : Int) : Spares (fetch url limit) :=
  spares_bind (fun _ => rfl) fun _ => spares_bind (fun _ => rfl) fun _ => spares_liftExcept _

/-! ### Steps -/

variable {st : Step} (lineage : Lineage)

theorem careful_makeStep : Careful (makeStep st lineage) := by
  have hthrow : Careful (throw (.run .missingName) : Run Outcome) := Spares.careful fun _ => rfl
  unfold makeStep
  split
  · split
    · exact hthrow
    · exact careful_bind (steady_argument _).spares fun v => Finishes.careful fun s => ⟨_, _, rfl⟩
  · exact hthrow

theorem careful_returnStep : Careful (returnStep st lineage) :=
  careful_bind (steady_argument _).spares fun _ => (finishes_change _ _).careful

theorem careful_titleStep : Careful (titleStep st lineage) := by
  have hend (text : String) : Careful (do
      bindArg st "into" (.str (titleOf text))
      record lineage [("event", .str "parse"), ("op", .str titleOp), ("verb", .str "Call")]
      pure (none : Outcome)) :=
    (finishes_bind (finishes_bindArg _ _ _) fun _ => finishes_change _ _).careful
  have hrest (source : Value) : Careful (do
      let text ← if source.isNull then pure "" else liftExcept source.shown
      bindArg st "into" (.str (titleOf text))
      record lineage [("event", .str "parse"), ("op", .str titleOp), ("verb", .str "Call")]
      pure (none : Outcome)) := by
    split
    · exact hend ""
    · exact careful_bind (spares_liftExcept _) hend
  unfold titleStep
  split
  · exact careful_bind (spares_evaluate _) hrest
  · split
    · exact careful_bind (fun _ => rfl) fun _ => hrest _
    · exact hrest .null

theorem careful_fetchStep (node : Value) : Careful (fetchStep st lineage node) := by
  refine careful_bind (spares_addressOf node) fun url => ?_
  refine careful_bind (spares_checkFetch url) fun _ => ?_
  refine careful_bind (spares_liftExcept _) fun _ => ?_
  refine careful_bind (spares_liftExcept _) fun limit => ?_
  refine careful_bind (spares_fetch url limit) fun d => Finishes.careful ?_
  refine finishes_bind (finishes_bindArg _ _ _) fun _ => ?_
  refine finishes_bind (finishes_bindArg _ _ _) fun _ => ?_
  refine finishes_bind (finishes_bindArg _ _ _) fun _ => ?_
  exact finishes_bind (finishes_bindArg _ _ _) fun _ s => ⟨(), _, rfl⟩

theorem careful_callStep (run : Value → Fields Value → Run Value) :
    Careful (callStep run st lineage) := by
  intro s t e hrun
  have hends := callStep_cases run s st lineage
  rw [hrun] at hends
  cases hends <;> rfl

theorem careful_anyCall (run : Value → Fields Value → Run Value) :
    Careful (anyCall run st lineage) := by
  unfold anyCall
  split
  · exact careful_titleStep lineage
  · split
    · exact careful_callStep lineage run
    · dsimp only
      split
      · exact (careful_fetchStep lineage _).thenFinishes fun _ s => ⟨none, s, rfl⟩
      · exact Spares.careful fun _ => rfl

/-- A step without steps inside it that fails leaves the variables, the entries and the
    questions as they were. -/
theorem failed_step_keeps {depth : Nat} {v : Value} {s t : Session} {e : Error}
    (hsimple : ∀ st, Step.ofValue v = .ok st → st.verb ∈ ["Make", "Return", "Ask", "Call"])
    (h : s.run (takeStep depth v) = (.error e, t)) :
    t.env = s.env ∧ t.receipt.steps = s.receipt.steps ∧ t.receipt.ask = s.receipt.ask := by
  suffices hkept : kept t = kept s by
    simpa only [kept, Prod.mk.injEq] using hkept
  cases depth with
  | zero =>
    cases h
    rfl
  | succ depth =>
    rw [takeStep_succ, step, run_bind, run_liftExcept] at h
    cases hst : Step.ofValue v with
    | error e =>
      rw [hst] at h
      cases h
      rfl
    | ok st =>
      rw [hst] at h
      dsimp only at h
      have hverb := hsimple st hst
      simp only [List.mem_cons, List.not_mem_nil, or_false] at hverb
      rcases hverb with hverb | hverb | hverb | hverb <;> rw [hverb] at h
      · exact careful_makeStep _ s t e h
      · exact careful_returnStep _ s t e h
      · obtain ⟨e', hrun⟩ | ⟨_, _, u, _, hrun, _⟩ := askStep_cases s hst
        · cases hrun.symm.trans h
          rfl
        · cases hrun.symm.trans h
      · exact careful_anyCall _ _ s t e h

/-- A call of a module that binds a variable and then fails: neither the variable nor an entry
    comes back. -/
theorem failed_step_keeps_nested : let broken : Value := .obj [("flow", .list [
      .obj [("verb", .str "Let"), ("args", .obj [("target", .str "x"), ("value", .int 2)])],
      .obj [("verb", .str "Dance")]])]
    let v : Value := .obj [("verb", .str "invoke"), ("args", .obj [("target", .str "Broken"),
      ("result", .str "x")])]
    let s : Session := { Session.start .null false [("Broken", broken)] [] with
      env := [("x", .int 1)], ready := true }
    ∃ t, s.run (takeStep 2 v) = (.error (.run (.unsupportedVerb "Dance")), t) ∧
      t.env = s.env ∧ t.receipt.steps = s.receipt.steps ∧ t.receipt.ask = s.receipt.ask := by
  intro broken v s
  have hrun : s.run (takeStep 2 v) = (.error (.run (.unsupportedVerb "Dance")), _) := rfl
  refine ⟨_, hrun, failed_step_keeps (fun st h => ?_) hrun⟩
  cases h
  decide

end Loom.Run
