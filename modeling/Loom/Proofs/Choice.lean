import Loom.Proofs.Law

/-!
# The Branch That Is Taken

A `Choose` goes through its branches in turn. A branch with a condition is selected if that comes
to what counts as true, a branch without one if it says `otherwise`. The first that is selected
is taken, and its steps run as they would on their own: all that is different is what stands in
the receipt before them. Each condition that was tried leaves an entry, also the one that was
true; the entry of an `otherwise` comes after its steps.

The entries that the steps of the branch leave, among them those of a `Choose` inside it, are
those that they leave by themselves, so the entries of the `Choose` itself can be told apart.
-/

namespace Loom

open List

namespace Session

def valueIn (s : Session) (c : Value) : Except Error Value :=
  if s.ready then Expr.eval s.env c else .error (.noMember "Interpreter" "evaluator")

theorem run_evaluate (s : Session) (c : Value) : s.run (Run.evaluate c) = (s.valueIn c, s) := by
  rw [Run.evaluate, run_bind, run_get, valueIn]
  dsimp only
  split
  · exact run_liftExcept s _
  · rfl

def noting (s : Session) (entries : List Value) : Session :=
  { s with receipt := { s.receipt with steps := s.receipt.steps ++ entries } }

theorem noting_nil (s : Session) : s.noting [] = s := by
  rw [noting, append_nil]

theorem noting_noting (s : Session) (xs ys : List Value) :
    (s.noting xs).noting ys = s.noting (xs ++ ys) := by
  rw [noting, noting, noting, append_assoc]

end Session

namespace Run

open Session Law

variable {α : Type} {s : Session} {b c : Value} {take : Value → Run Outcome} {lineage : Lineage}

theorem exists_added {d : Run α} (hd : ∀ past : Backdrop, past.Through d) (s : Session) :
    ∃ new, (s.run d).2.receipt.steps = s.receipt.steps ++ new ∧
      ∀ entries, (s.noting entries).run d = ((s.run d).1, { (s.run d).2 with
        receipt := { (s.run d).2.receipt with steps := s.receipt.steps ++ entries ++ new } }) := by
  -- both sessions are seen from the one without entries
  let past (xs : List Value) : Backdrop := { Backdrop.same with
      steps := (xs ++ ·), steps_append := fun _ _ => (append_assoc _ _ _).symm }
  let bare : Session := { s with receipt := { s.receipt with steps := [] } }
  have hbare (xs : List Value) : { s with receipt := { s.receipt with steps := xs } } =
      (past xs).behind bare := by
    change _ = { s with receipt := { s.receipt with steps := xs ++ [] } }
    rw [append_nil]
  have hs : s.run d = ((bare.run d).1, (past s.receipt.steps).behind (bare.run d).2) :=
    (congrArg (Session.run · d) (hbare s.receipt.steps)).trans (hd _ bare)
  refine ⟨(bare.run d).2.receipt.steps, congrArg (·.2.receipt.steps) hs, fun entries => ?_⟩
  rw [noting, hbare, hd, hs]
  rfl

theorem through_branchBlock (past : Backdrop) (depth : Nat) (b : Value) :
    past.Through (branchBlock (takeStep depth) b) :=
  fun s => (relates_block (fun _ _ v _ => governs_staying past s.settings depth v) s rfl).1

/-! ### Branches -/

/-- A branch is selected, by its condition or because it is taken otherwise. -/
inductive Picks (s : Session) (b : Value) : String → Prop
  | when {c w : Value} (hc : b.field? "when" = some c) (hw : s.valueIn c = .ok w)
      (h : w.truthy) : Picks s b "when"
  | otherwise (hb : b.isObj) (hc : b.field? "when" = none)
      (h : (b.field "otherwise").truthy) : Picks s b "otherwise"

/-- A branch is not selected, and its condition, if it has one, does not fail. -/
structure Passes (s : Session) (b : Value) : Prop where
  isObj : b.isObj
  not_picked : ∀ kind, ¬Picks s b kind
  not_fails : ∀ c, b.field? "when" = some c → (s.valueIn c).isOk

theorem Passes.noting (h : Passes s b) (entries : List Value) : Passes (s.noting entries) b where
  isObj := h.isObj
  not_picked kind hpick := h.not_picked kind (match hpick with
    | .when hc hw ht => .when hc hw ht
    | .otherwise hb hc ht => .otherwise hb hc ht)
  not_fails := h.not_fails

def conditionEntry (lineage : Lineage) (c : Value) (holds : Bool) (selected : Value) : Value :=
  .obj (lineage.mark [("event", .str "choose"), ("predicateTrace", .list [.obj
      [("expr", traceOf c), ("value", .bool holds)]]),
    ("verb", .str "Choose"), ("rawVerb", .null), ("selected", selected)])

def otherwiseEntry (lineage : Lineage) (index : Nat) : Value :=
  .obj (lineage.mark [("event", .str "choose"), ("predicateTrace", .list []),
    ("selected", selection index "otherwise"), ("verb", .str "Choose")])

def tried (lineage : Lineage) (bs : List Value) : List Value :=
  bs.filterMap fun b => (b.field? "when").map fun c => conditionEntry lineage c false .null

/-- What a branch that is taken leaves, if its steps leave `new`. -/
def chosen (lineage : Lineage) (index : Nat) (b : Value) (new : List Value) : List Value :=
  (b.field? "when").elim (new ++ [otherwiseEntry lineage index]) fun c =>
    conditionEntry lineage c true (selection index "when") :: new

theorem run_branches_when (hc : b.field? "when" = some c) (index : Nat) (rest : List Value) :
    s.run (branches take lineage index (b :: rest)) = match s.valueIn c with
      | .error e => (.error e, s)
      | .ok w =>
        if w.truthy then
          (s.noting [conditionEntry lineage c true (selection index "when")]).run
            (branchBlock take b)
        else (s.noting [conditionEntry lineage c false .null]).run
          (branches take lineage (index + 1) rest) := by
  have hhas : b.hasMember "when" = .ok true ∧ b.lookup "when" = .ok c := by
    cases b with
    | obj fs =>
      have hget : Fields.get? fs "when" = some c := hc
      rw [Value.hasMember, Fields.has, Value.lookup, Value.lookup?, hget]
      exact ⟨rfl, rfl⟩
    | _ => cases hc
  rw [branches, run_bind, run_liftExcept, hhas.1]
  dsimp only
  rw [if_pos rfl, run_bind, run_liftExcept, hhas.2]
  dsimp only
  rw [run_bind, run_evaluate]
  cases s.valueIn c with
  | error e => rfl
  | ok w =>
    dsimp only
    cases w.truthy <;> rfl

theorem run_branches_plain (hb : b.isObj) (hc : b.field? "when" = none) (index : Nat)
    (rest : List Value) : s.run (branches take lineage index (b :: rest)) =
      if (b.field "otherwise").truthy then s.run (do
        let out ← branchBlock take b
        change (·.noting [otherwiseEntry lineage index])
        pure out)
      else s.run (branches take lineage (index + 1) rest) := by
  have hhas : b.hasMember "when" = .ok false ∧
      b.lookup "otherwise" = .ok (b.field "otherwise") := by
    cases b with
    | obj fs =>
      have hget : Fields.get? fs "when" = none := hc
      rw [Value.hasMember, Fields.has, hget]
      exact ⟨rfl, rfl⟩
    | _ => cases hb
  rw [branches, run_bind, run_liftExcept, hhas.1]
  dsimp only
  rw [if_neg Bool.false_ne_true, run_bind, run_liftExcept, hhas.2]
  dsimp only
  split <;> rfl

theorem run_branches_pass (h : Passes s b) (index : Nat) (rest : List Value) :
    s.run (branches take lineage index (b :: rest)) =
      (s.noting (tried lineage [b])).run (branches take lineage (index + 1) rest) := by
  cases hc : b.field? "when" with
  | some c =>
    have htried : tried lineage [b] = [conditionEntry lineage c false .null] := by
      rw [tried, filterMap_cons, hc]
      rfl
    rw [run_branches_when hc, htried]
    have hok := h.not_fails c hc
    cases hw : s.valueIn c with
    | error e => rw [hw] at hok; cases hok
    | ok w => exact if_neg fun ht => h.not_picked _ (.when hc hw ht)
  | none =>
    have htried : tried lineage [b] = [] := by
      rw [tried, filterMap_cons, hc]
      rfl
    rw [run_branches_plain h.isObj hc, htried, noting_nil]
    exact if_neg fun ht => h.not_picked _ (.otherwise h.isObj hc ht)

theorem run_branches_passed {before : List Value} (hbefore : ∀ b ∈ before, Passes s b)
    (index : Nat) (rest : List Value) : s.run (branches take lineage index (before ++ rest)) =
      (s.noting (tried lineage before)).run
        (branches take lineage (index + before.length) rest) := by
  induction before generalizing s index with
  | nil => exact congrArg (Session.run · _) (noting_nil s).symm
  | cons b before ih =>
    have hrest : ∀ p ∈ before, Passes (s.noting (tried lineage [b])) p :=
      fun p hp => (hbefore p (mem_cons_of_mem _ hp)).noting _
    rw [cons_append, run_branches_pass (hbefore b mem_cons_self), ih hrest,
      noting_noting, length_cons, Nat.add_right_comm, Nat.add_assoc]
    exact congrArg (fun xs => (s.noting xs).run _) filterMap_append.symm

theorem run_step_choose {v : Value} {st : Step} {bs : List Value} (s : Session)
    (hv : Step.ofValue v = .ok st) (hverb : st.verb = "Choose")
    (hbs : ((st.arg "branches").orElse (.list [])).items = .ok bs)
    (take : Value → Run Outcome) (run : Value → Fields Value → Run Value) :
    s.run (step take run v) = s.run (branches take (Lineage.ofStep v) 0 bs) := by
  rw [step, run_bind, run_liftExcept, hv]
  dsimp only
  rw [hverb]
  change s.run (chooseStep _ st _) = _
  rw [chooseStep, run_bind, run_liftExcept, hbs]

theorem run_branches_taken {depth : Nat} {kind : String} {r : Outcome} {u : Session}
    (hpick : Picks s b kind) (hrun : s.run (branchBlock (takeStep depth) b) = (.ok r, u))
    (entries : List Value) (index : Nat) (rest : List Value) :
    ∃ new, u.receipt.steps = s.receipt.steps ++ new ∧
      (s.noting entries).run (branches (takeStep depth) lineage index (b :: rest)) =
        (.ok r, { u with receipt := { u.receipt with
          steps := s.receipt.steps ++ entries ++ chosen lineage index b new } }) := by
  obtain ⟨new, hnew, hadd⟩ := exists_added (through_branchBlock · depth b) s
  rw [hrun] at hnew hadd
  refine ⟨new, hnew, ?_⟩
  cases hpick with
  | @when c w hc hw ht =>
    have hw' : (s.noting entries).valueIn c = .ok w := hw
    rw [run_branches_when hc, hw']
    dsimp only
    rw [if_pos ht, noting_noting, hadd, chosen, hc, Option.elim_some, append_assoc,
      append_assoc, append_assoc]
    rfl
  | otherwise hb hc ht =>
    rw [run_branches_plain hb hc, if_pos ht, run_bind, hadd, chosen, hc, Option.elim_none]
    dsimp only
    rw [run_bind, ← append_assoc]
    rfl

/-- A `Choose` takes the first branch that is selected, if no condition before it fails. It ends
    as the steps of the branch end by themselves, and they record the same: its own entries are
    one for each condition that was tried, and one for the branch that is taken. If no branch is
    selected, or a condition before fails, then no branch is taken. -/
theorem choose_takes_first {v : Value} {st : Step} {bs : List Value} (depth : Nat) (s : Session)
    (hv : Step.ofValue v = .ok st) (hverb : st.verb = "Choose")
    (hbs : ((st.arg "branches").orElse (.list [])).items = .ok bs) :
    (∀ before b after kind r u, bs = before ++ b :: after → (∀ p ∈ before, Passes s p) →
      Picks s b kind → s.run (branchBlock (takeStep depth) b) = (.ok r, u) →
      ∃ new, u.receipt.steps = s.receipt.steps ++ new ∧
        s.run (takeStep (depth + 1) v) = (.ok r, { u with receipt := { u.receipt with
          steps := s.receipt.steps ++ tried (Lineage.ofStep v) before ++
            chosen (Lineage.ofStep v) before.length b new } })) ∧
    ((∀ p ∈ bs, Passes s p) →
      s.run (takeStep (depth + 1) v) = (.ok none, s.noting (tried (Lineage.ofStep v) bs))) ∧
    ∀ before b after c e, bs = before ++ b :: after → (∀ p ∈ before, Passes s p) →
      b.field? "when" = some c → s.valueIn c = .error e →
      s.run (takeStep (depth + 1) v) = (.error e, s.noting (tried (Lineage.ofStep v) before)) := by
  have hstep : s.run (takeStep (depth + 1) v) =
      s.run (branches (takeStep depth) (Lineage.ofStep v) 0 bs) :=
    run_step_choose s hv hverb hbs _ _
  rw [hstep]
  refine ⟨?_, ?_, ?_⟩
  · rintro before b after kind r u rfl hbefore hpick hrun
    rw [run_branches_passed hbefore, Nat.zero_add]
    exact run_branches_taken hpick hrun _ _ after
  · intro hpass
    have hall : s.run (branches (takeStep depth) (Lineage.ofStep v) 0 (bs ++ [])) = _ :=
      run_branches_passed hpass 0 []
    rw [List.append_nil] at hall
    exact hall
  · rintro before b after c e rfl hbefore hc hw
    have hw' : (s.noting (tried (Lineage.ofStep v) before)).valueIn c = .error e := hw
    rw [run_branches_passed hbefore, run_branches_when hc, hw']

/-- A condition that is false, and a branch taken otherwise with a `Choose` in it. -/
theorem choose_takes_first_otherwise :
    let truth (b : Bool) : Value := .obj [("type", .str "Boolean"), ("value", .bool b)]
    let inner : Value := .obj [("verb", .str "Choose"), ("args", .obj [("branches", .list
      [.obj [("when", truth true), ("steps", .list [.obj [("verb", .str "Make"),
        ("args", .obj [("name", .str "x"), ("expr", .int 1)])]])]])])]
    let before : Value := .obj [("when", truth false)]
    let last : Value := .obj [("otherwise", .bool true), ("steps", .list [inner])]
    let v : Value := .obj [("verb", .str "Choose"),
      ("args", .obj [("branches", .list [before, last])])]
    let s : Session := { Session.start .null false [] [] with ready := true }
    ∃ t, s.run (takeStep 3 v) = (.ok none, t) ∧ t.env = [("x", .int 1)] ∧
      ∃ new, t.receipt.steps = [conditionEntry (Lineage.ofStep v) (truth false) false .null] ++
        (new ++ [otherwiseEntry (Lineage.ofStep v) 1]) := by
  intro truth inner before last v s
  have hv : Step.ofValue v = .ok ⟨"Choose", [("branches", .list [before, last])], "Choose"⟩ := by
    rfl
  have hbefore : Passes s before := by
    refine ⟨rfl, ?_, ?_⟩
    · rintro _ (⟨hc, hw, ht⟩ | ⟨_, hc, _⟩)
      · cases hc
        cases hw
        cases ht
      · cases hc
    · intro c hc
      cases hc
      rfl
  have hrun : s.run (branchBlock (takeStep 2) last) =
      (.ok none, (s.run (branchBlock (takeStep 2) last)).2) := by rfl
  obtain ⟨new, _, h⟩ := (choose_takes_first 2 s hv rfl rfl).1 [before] last [] "otherwise" _ _ rfl
    (List.forall_mem_singleton.mpr hbefore) (.otherwise rfl rfl rfl) hrun
  exact ⟨_, h, by rfl, new, rfl⟩

end Run

end Loom
