import Loom.Proofs.Running

/-!
# What a Step Leaves Alone

A step binds the variables that its arguments name and no others, whichever way it
ends, and an expression looks up the names that stand in it and no others. So an
expression that names none of the variables that a step binds has the same value
after the step as before it.

`Keeps` says of a computation that it leaves variables alone, and `Within` that it
returns only under a condition as well, which is `False` where a computation always
goes on. That variables are left alone is a law, so what a verb does to them is known,
and a loop is put together from its rounds.
-/

namespace Loom

open Loom.Text

/-! ### Names -/

variable {v : Value}

namespace Expr

def Node.names : Node → List String
  | name (.str s) => [s]
  | binary _ l r => l.names ++ r.names
  | unary _ e => e.names
  | _ => []

theorem Node.lookupName_congr {env env' : Env} {key : Value}
    (h : ∀ x ∈ (name key).names, env.get? x = env'.get? x) :
    lookupName env key = lookupName env' key := by
  cases key with
  | str s =>
    have hs := h s List.mem_cons_self
    change Except.ok (Fields.getD env s .null) = Except.ok (Fields.getD env' s .null)
    rw [Fields.getD, Fields.getD, hs]
  | _ => rfl

theorem Node.eval_congr {env env' : Env} {n : Node}
    (h : ∀ x ∈ n.names, env.get? x = env'.get? x) : n.eval env = n.eval env' := by
  induction n with
  | itself v => rfl
  | truth v => rfl
  | name key => exact lookupName_congr h
  | binary op l r ihl ihr =>
    rw [names] at h
    rw [eval, eval, ihl fun x hx => h x (List.mem_append_left _ hx),
      ihr fun x hx => h x (List.mem_append_right _ hx)]
  | unary op e ih => rw [eval, eval, ih h]

/-- The names that stand in an expression. -/
def reads (v : Value) : List String := (Node.ofValue v).names

theorem eval_congr {env env' : Env} (h : ∀ x ∈ reads v, env.get? x = env'.get? x) :
    eval env v = eval env' v := by
  rw [eval, eval, Node.eval_congr h]

end Expr

namespace Step

/-- The names that the expression of a `Return` looks up. -/
def reads (s : Step) : List String := Expr.reads (s.firstArg ["expr", "value"])

end Step

/-- Sessions in which some variables have the same values. -/
structure Session.Alike (xs : List String) (s t : Session) : Prop where
  ready : t.ready = s.ready
  env : ∀ x ∈ xs, t.env.get? x = s.env.get? x

namespace Session.Alike

variable {xs : List String} {s t u : Session}

theorem refl (s : Session) : Alike xs s s := ⟨rfl, fun _ _ => rfl⟩

theorem trans (h₁ : Alike xs s t) (h₂ : Alike xs t u) : Alike xs s u :=
  ⟨h₂.ready.trans h₁.ready, fun x hx => (h₂.env x hx).trans (h₁.env x hx)⟩

end Session.Alike

namespace Run

open Session

variable {α β : Type} {xs : List String}

/-- A computation that leaves variables alone, whether it ends well or fails. -/
def Keeps (xs : List String) (c : Run α) : Prop := ∀ s : Session, Alike xs s (s.run c).2

/-! ### Putting computations together -/

theorem keeps_pure (a : α) : Keeps xs (pure a : Run α) := fun s => .refl s

theorem keeps_throw (e : Error) : Keeps xs (throw e : Run α) := fun s => .refl s

variable {c : Run α}

theorem keeps_bind {f : α → Run β} (hc : Keeps xs c) (hf : ∀ a, Keeps xs (f a)) :
    Keeps xs (c >>= f) := by
  intro s
  have hfirst := hc s
  rw [run_bind]
  rcases hrun : s.run c with ⟨e | a, t⟩
  · rwa [hrun] at hfirst
  · rw [hrun] at hfirst
    exact hfirst.trans (hf a t)

/-- The law that variables are left alone. -/
def leaving (xs : List String) (s₀ : Session) : Law where
  holds _ s := Alike xs s₀ s
  free x := x ∉ xs
  faults _ h := h
  binds hname v h := by
    refine ⟨h.ready, fun x hx => (Fields.get?_put_of_ne _ ?_ v).trans (h.env x hx)⟩
    rintro rfl
    exact hname hx
  records _ _ h := ⟨h.ready, h.env⟩
  calls _ h := ⟨h.ready, h.env⟩
  shows _ _ h := ⟨fun _ _ => ⟨h.ready, h.env⟩, fun _ _ => ⟨h.ready, h.env⟩⟩
  fetches _ h := ⟨h.ready, h.env⟩
  refuses _ _ _ h := ⟨h.ready, h.env⟩

theorem calls_leaving (run : Value → Fields Value → Run Value) (s₀ : Session) :
    (leaving xs s₀).Calls run :=
  fun _ _ _ _ h _ => ⟨h.ready, h.env⟩

theorem keeps_of_governs (h : ∀ s₀, (leaving xs s₀).Governs c) : Keeps xs c :=
  fun s => (h s s (.refl s)).2

theorem keeps_argument (v : Value) : Keeps xs (argument v) :=
  keeps_of_governs fun _ => Law.governs_argument v

/-- A computation that leaves variables alone, and returns only under a condition. -/
structure Within (xs : List String) (p : Prop) (c : Run Outcome) : Prop where
  keeps : Keeps xs c
  returns : ∀ (s t : Session) (v : Value), s.run c = (.ok (some v), t) → p

variable {p : Prop}

/-- A computation returns only under a condition. -/
def ReturnsIf (p : Prop) (c : Run Outcome) : Prop :=
  ∀ (s t : Session) (v : Value), s.run c = (.ok (some v), t) → p

theorem returnsIf_none : ReturnsIf p (pure none) := fun _ _ _ h => nomatch (Prod.mk.inj h).1

theorem returnsIf_throw (e : Error) : ReturnsIf p (throw e) :=
  fun _ _ _ h => nomatch (Prod.mk.inj h).1

variable {f : α → Run Outcome}

theorem returnsIf_bind (hf : ∀ a, ReturnsIf p (f a)) : ReturnsIf p (c >>= f) := by
  intro s t v h
  obtain ⟨a, u, _, h⟩ := exists_of_run_bind h
  exact hf a u t v h

theorem within_none : Within xs p (pure none) := ⟨keeps_pure none, returnsIf_none⟩

theorem within_throw (e : Error) : Within xs p (throw e) := ⟨keeps_throw e, returnsIf_throw e⟩

theorem within_bind (hc : Keeps xs c) (hf : ∀ a, Within xs p (f a)) : Within xs p (c >>= f) :=
  ⟨keeps_bind hc fun a => (hf a).keeps, returnsIf_bind fun a => (hf a).returns⟩

variable {c : Run Outcome}

theorem within_andThen {d : Run Outcome} (hc : Within xs p c) (hd : Within xs p d) :
    Within xs p (andThen c d) := by
  refine ⟨keeps_bind hc.keeps fun out => ?_, fun s t v h => ?_⟩
  · cases out with
    | some v => exact keeps_pure _
    | none => exact hd.keeps
  · obtain ⟨_, hrun⟩ | ⟨u, _, hrun⟩ := exists_of_run_andThen h
    · exact hc.returns s t v hrun
    · exact hd.returns u t v hrun

theorem within_steps {take : Value → Run Outcome} {vs : List Value}
    (h : ∀ v ∈ vs, Within xs p (take v)) : Within xs p (steps take vs) := by
  induction vs with
  | nil => exact within_none
  | cons v vs ih =>
    rw [List.forall_mem_cons] at h
    rw [steps_cons]
    exact within_andThen h.1 (ih h.2)

/-! ### Verbs -/

theorem returnsIf_makeStep (s : Step) (lineage : Lineage) : ReturnsIf p (makeStep s lineage) := by
  unfold makeStep
  repeat' first
    | exact returnsIf_none
    | exact returnsIf_throw _
    | refine returnsIf_bind fun _ => ?_
    | split

theorem returnsIf_showStep (s : Step) (lineage : Lineage) : ReturnsIf p (showStep s lineage) := by
  unfold showStep
  repeat' first
    | exact returnsIf_none
    | refine returnsIf_bind fun _ => ?_

theorem returnsIf_askStep (s : Step) : ReturnsIf p (askStep s) := by
  unfold askStep
  repeat' first
    | exact returnsIf_none
    | refine returnsIf_bind fun _ => ?_
    | split
    | dsimp only

theorem returnsIf_anyCall (run : Value → Fields Value → Run Value) (s : Step) (lineage : Lineage) :
    ReturnsIf p (anyCall run s lineage) := by
  unfold anyCall titleStep callStep
  repeat' first
    | exact returnsIf_none
    | exact returnsIf_throw _
    | refine returnsIf_bind fun _ => ?_
    | split
    | dsimp only

/-- The verbs that have no steps inside them. -/
def plainVerbs : List String := ["Return", "Show", "Ask", "Make", "Call"]

theorem within_step (take : Value → Run Outcome) (run : Value → Fields Value → Run Value) {s : Step} (hs : Step.ofValue v = .ok s) (hverb : s.verb ∈ plainVerbs)
    (hp : s.verb = "Return" → p) (h : ∀ x ∈ s.targets, x ∉ xs) : Within xs p (step take run v) := by
  obtain ⟨verb, args, raw⟩ := s
  unfold step
  rw [hs]
  simp only [plainVerbs, List.mem_cons, List.not_mem_nil, or_false] at hverb
  rcases hverb with rfl | rfl | rfl | rfl | rfl
  · exact ⟨keeps_of_governs fun _ => Law.governs_returnStep _ _, fun _ _ _ _ => hp rfl⟩
  · exact ⟨keeps_of_governs fun _ => Law.governs_showStep _ _, returnsIf_showStep _ _⟩
  · exact ⟨keeps_of_governs fun _ => Law.governs_askStep h fun _ _ hx => ⟨hx.ready, hx.env⟩,
      returnsIf_askStep _⟩
  · exact ⟨keeps_of_governs fun _ => Law.governs_makeStep h _, returnsIf_makeStep _ _⟩
  · exact ⟨keeps_of_governs fun _ => Law.governs_anyCall (calls_leaving run _) h _,
      returnsIf_anyCall _ _ _⟩

/-! ### What is returned -/

theorem run_argument_congr {s t : Session} (h : Alike (Expr.reads v) s t) :
    (t.run (argument v)).1 = (s.run (argument v)).1 := by
  have hrun : ∀ u : Session, (u.run (argument v)).1 = if v.isObj then
        if u.ready then Expr.eval u.env v else .error (.noMember "Interpreter" "evaluator")
      else .ok v := by
    intro u
    unfold argument
    split
    · rw [evaluate, run_bind, run_get]
      dsimp only
      split
      · rw [run_liftExcept]
      · rfl
    · rfl
  rw [hrun, hrun, h.ready, Expr.eval_congr h.env]

theorem run_returnStep (u : Session) (s : Step) (lineage : Lineage) :
    (u.run (returnStep s lineage)).1
      = (u.run (argument (s.firstArg ["expr", "value"]))).1.map some := by
  rw [returnStep, run_bind]
  rcases u.run (argument _) with ⟨e | v, t⟩
  · rfl
  · rfl

/-! ### Loops -/

/-- Rounds of a loop, given what happens in a round. -/
def rounds (iterator : Value) (stride : Int) (c : Run Outcome) : Nat → Int → Run Outcome
  | 0, _ => pure none
  | n + 1, i => do
    bindIterator iterator (.int i)
    andThen c (rounds iterator stride c n (i + stride))

theorem countLoop_eq (take : Value → Run Outcome) (iterator : Value) (vs : List Value)
    (stride : Int) (n : Nat) (i : Int) :
    countLoop take iterator (Step.blockOf (.list vs)) stride n i
      = rounds iterator stride (steps take vs) n i := by
  induction n generalizing i with
  | zero => rfl
  | succ n ih =>
    rw [countLoop, rounds, ← ih, ← block_of_list]
    rfl

/-- A repetition with its arguments, given what happens in a round. -/
def looped (args : Value) (c : Run Outcome) : Run Outcome := do
  let range := args.field "range"
  if (range.field "type").isText "Range" then
    let first ← argument (range.fieldD "start" (.int 0))
    let last ← argument (range.fieldD "end" (.int 0))
    let stride ← argument (range.fieldD "step" (.int 1))
    match Span.ofValues? first last stride (range.field "inclusive").truthy with
    | .ok span => rounds (args.field "iter") span.stride c span.count span.first
    | .error _ => throw (.run .rangeBounds)
  else pure none

variable {iterator : Value}

theorem keeps_bindIterator (h : iterator = .null ∨ ∃ x, iterator = .str x ∧ x ∉ xs) (v : Value) :
    Keeps xs (bindIterator iterator v) := by
  rcases h with rfl | ⟨x, rfl, hx⟩
  · exact keeps_pure ()
  · unfold bindIterator
    split
    · exact keeps_pure ()
    · exact keeps_of_governs fun _ => Law.governs_bindName hx v

theorem within_rounds
    (h : iterator = .null ∨ ∃ x, iterator = .str x ∧ x ∉ xs) (hc : Within xs p c) (stride : Int)
    (n : Nat) (i : Int) : Within xs p (rounds iterator stride c n i) := by
  induction n generalizing i with
  | zero => exact within_none
  | succ n ih =>
    refine within_bind (keeps_bindIterator h _) (fun _ => ?_)
    exact within_andThen hc (ih (i + stride))

theorem within_looped {args : Value}
    (h : args.field "iter" = .null ∨ ∃ x, args.field "iter" = .str x ∧ x ∉ xs)
    (hc : Within xs p c) : Within xs p (looped args c) := by
  unfold looped
  dsimp only
  split
  · refine within_bind (keeps_argument _) (fun first => ?_)
    refine within_bind (keeps_argument _) (fun last => ?_)
    refine within_bind (keeps_argument _) (fun stride => ?_)
    split
    · exact within_rounds h hc _ _ _
    · exact within_throw _
  · exact within_none

end Run

end Loom

/-!
## Runs That Follow Another

When is one computation as good as another that it replaces? Where the other goes
on, it has to go on the same way, for nothing is known about what comes after.
Where the other returns, nothing comes after but what is done with the value, so it
has to return that value and may leave another session behind. `Follows` says this
of two computations, and lets the second fail where the first returns, in ways that
are given.

What follows can be put together: one after the other, behind a common beginning
and in the rounds of a loop. The one step that is more than that is `follows_swap`:
a `Return` may be put off until steps are done that go on and bind nothing that its
expression names. If those steps fail then so does the run, which is why failing
has to be allowed.
-/

namespace Loom.Run

open Session

variable {s : Session} {c d : Run Outcome}

def Returns (fails : Error → Prop) (c : Run Outcome) (s : Session) (v : Value) : Prop :=
  (∃ t, s.run c = (.ok (some v), t)) ∨ ∃ e t, s.run c = (.error e, t) ∧ fails e

/-- From every session of a run, where the first computation goes on the second does
    the same, and where it returns the second returns the same value, or fails in
    one of some ways. -/
structure Follows (fails : Error → Prop) (c d : Run Outcome) : Prop where
  goesOn : ∀ {s t : Session}, s.ready → s.run c = (.ok none, t) →
    t.ready ∧ s.run d = (.ok none, t)
  returns : ∀ {s t : Session} {v : Value}, s.ready → s.run c = (.ok (some v), t) →
    Returns fails d s v

variable {α : Type} {fails : Error → Prop}

theorem Keeps.ready {xs : List String} {c : Run α} (h : Keeps xs c) {t : Session}
    {r : Except Error α} (hs : s.ready) (hrun : s.run c = (r, t)) : t.ready := by
  have halike := (h s).ready
  rw [hrun] at halike
  exact halike.trans hs

theorem follows_self (h : Keeps [] c) : Follows fails c c where
  goesOn hs hrun := ⟨h.ready hs hrun, hrun⟩
  returns _ hrun := .inl ⟨_, hrun⟩

theorem Follows.mono {fails' : Error → Prop} (h : Follows fails c d)
    (himp : ∀ e, fails e → fails' e) : Follows fails' c d where
  goesOn := h.goesOn
  returns hs hrun := (h.returns hs hrun).imp_right fun ⟨e, t, he, hfails⟩ => ⟨e, t, he, himp e hfails⟩

theorem follows_bind {x : Run α} {f g : α → Run Outcome} (hx : Keeps [] x)
    (h : ∀ a, Follows fails (f a) (g a)) : Follows fails (x >>= f) (x >>= g) where
  goesOn := by
    intro s t hs hrun
    obtain ⟨a, u, hfirst, hrun⟩ := exists_of_run_bind hrun
    rw [run_bind, hfirst]
    exact (h a).goesOn (hx.ready hs hfirst) hrun
  returns := by
    intro s t v hs hrun
    obtain ⟨a, u, hfirst, hrun⟩ := exists_of_run_bind hrun
    have hreturns := (h a).returns (hx.ready hs hfirst) hrun
    rwa [Returns, run_bind, hfirst]

theorem Returns.andThen {v : Value} (h : Returns fails c s v) :
    Returns fails (andThen c d) s v := by
  rw [Returns, run_andThen]
  rcases h with ⟨t, hrun⟩ | ⟨e, t, hrun, hfails⟩
  · exact .inl ⟨t, by rw [hrun]⟩
  · exact .inr ⟨e, t, by rw [hrun], hfails⟩

theorem Returns.of_goesOn {t : Session} {v : Value} (hc : s.run c = (.ok none, t))
    (h : Returns fails d t v) : Returns fails (Run.andThen c d) s v := by
  rwa [Returns, run_andThen, hc]

theorem follows_andThen {c' d' : Run Outcome} (hc : Follows fails c c') (hd : Follows fails d d') :
    Follows fails (andThen c d) (andThen c' d') where
  goesOn := by
    intro s t hs hrun
    obtain ⟨hsome, _⟩ | ⟨u, hfirst, hrun⟩ := exists_of_run_andThen hrun
    · cases hsome
    · obtain ⟨hu, hfirst'⟩ := hc.goesOn hs hfirst
      rw [run_andThen, hfirst']
      exact hd.goesOn hu hrun
  returns := by
    intro s t v hs hrun
    obtain ⟨_, hfirst⟩ | ⟨u, hfirst, hrun⟩ := exists_of_run_andThen hrun
    · exact (hc.returns hs hfirst).andThen
    · obtain ⟨hu, hfirst'⟩ := hc.goesOn hs hfirst
      exact .of_goesOn hfirst' (hd.returns hu hrun)

theorem follows_rounds {iterator : Value} (h : iterator = .null ∨ ∃ x, iterator = .str x)
    (hc : Follows fails c d) (stride : Int) (n : Nat) (i : Int) :
    Follows fails (rounds iterator stride c n i) (rounds iterator stride d n i) := by
  have hiter : iterator = .null ∨ ∃ x, iterator = .str x ∧ x ∉ ([] : List String) :=
    h.imp_right fun ⟨x, hx⟩ => ⟨x, hx, List.not_mem_nil⟩
  induction n generalizing i with
  | zero => exact follows_self (keeps_pure none)
  | succ n ih =>
    refine follows_bind (keeps_bindIterator hiter _) (fun _ => ?_)
    exact follows_andThen hc (ih (i + stride))

theorem follows_looped {args : Value}
    (h : args.field "iter" = .null ∨ ∃ x, args.field "iter" = .str x) (hc : Follows fails c d) :
    Follows fails (looped args c) (looped args d) := by
  unfold looped
  dsimp only
  split
  · refine follows_bind (keeps_argument _) (fun first => ?_)
    refine follows_bind (keeps_argument _) (fun last => ?_)
    refine follows_bind (keeps_argument _) (fun stride => ?_)
    split
    · exact follows_rounds h hc _ _ _
    · exact follows_self (keeps_throw _)
  · exact follows_self (keeps_pure none)

/-- A computation that returns may be put off until another is done that goes on and
    leaves alone what it depends on. -/
theorem follows_swap {xs : List String} {r : Run Outcome}
    (hreturns : ∀ s t : Session, s.run r ≠ (.ok none, t))
    (hr : ∀ s t : Session, Alike xs s t → (t.run r).1 = (s.run r).1) (hc : Within xs False c)
    (hfails : ∀ (s t : Session) e, s.ready → s.run c = (.error e, t) → fails e) :
    Follows fails (andThen r c) (andThen c r) where
  goesOn := by
    intro s t hs hrun
    obtain ⟨hsome, _⟩ | ⟨u, hfirst, _⟩ := exists_of_run_andThen hrun
    · cases hsome
    · exact absurd hfirst (hreturns s u)
  returns := by
    intro s t v hs hrun
    obtain ⟨_, hfirst⟩ | ⟨u, hfirst, _⟩ := exists_of_run_andThen hrun
    · rcases hother : s.run c with ⟨e | _ | w', u'⟩
      · exact .inr ⟨e, u', by rw [run_andThen, hother], hfails s u' e hs hother⟩
      · have halike := hc.keeps s
        rw [hother] at halike
        have hsame := hr s u' halike
        rw [hfirst] at hsame
        exact .of_goesOn hother (.inl ⟨(u'.run r).2, Prod.ext hsame rfl⟩)
      · exact absurd (hc.returns s u' w' hother) not_false
    · exact absurd hfirst (hreturns s u)

end Loom.Run
