import Loom.Check.Module
import Loom.Module
import Loom.Proofs.Meaning
import Loom.Proofs.Provenance

/-!
# What the Check of a Module Overlooks

The check of a module warns of names that an expression reads and nothing binds. It follows the
steps of the flow in order. That it has nothing to say does not mean that a run never reads a
variable that is not bound, for it does not look at what a repetition does, at the default of
an `Ask`, or at what a step reads of the name that it binds itself; and it trusts that every
call of a module binds its result, where a call of a module that is not known binds nothing.

These are the only gaps. As long as nothing binds a name, a step that is looked at does not
mention it; from the step that binds it on, the name stays bound. So where no step of a flow is
overlooked before the name is bound, a run never comes to a step that reads it unbound.
-/

namespace Loom

open Loom.Flow List Except Prod Value Step

variable {v m : Value} {s t : Session} {name verb : String} {depth number : Nat} {f : Findings}

/-! ### Names in expressions -/

variable {x : String}

namespace Expr

theorem mem_names_ofFields {fs : Fields Value} {nodes : Fields Node}
    (h : x ∈ (Node.ofFields fs nodes).names) :
    Check.isNameExpr fs ∧ fs.getD "name" .null = .str x ∨
      Check.isNameExpr fs = false ∧ ∃ key, x ∈ (nodes.getD key (.itself .null)).names := by
  unfold Node.ofFields at h
  dsimp only at h
  split at h
  · rename_i hname
    refine .inl ⟨hname, ?_⟩
    unfold Node.names at h
    split at h
    · rename_i s hs
      obtain rfl := mem_singleton.mp h
      exact Node.name.inj hs
    · cases ‹Node.name _ = _›
    · cases ‹Node.name _ = _›
    · cases h
  · rename_i hname
    refine .inr ⟨Bool.eq_false_iff.mpr hname, ?_⟩
    -- literals look up nothing, operators what their operands do
    split at h
    · cases h
    · split at h
      · cases h
      · split at h
        · cases h
        · split at h
          · exact (mem_append.mp h).elim (⟨_, ·⟩) (⟨_, ·⟩)
          · split at h
            · rw [Node.names] at h
              split at h
              · exact ⟨_, h⟩
              · exact ⟨_, h⟩
            · cases h

mutual

theorem mem_namesIn_of_mem_names :
    ∀ (v : Value) (x : String), x ∈ (Node.ofValue v).names → x ∈ Check.namesIn v
  | .obj fs, x, h => by
    rw [Node.ofValue] at h
    rw [Check.namesIn]
    obtain ⟨hname, hx⟩ | ⟨hname, key, hx⟩ := mem_names_ofFields h
    · rw [if_pos hname, hx]
      exact mem_singleton_self x
    · rw [if_neg (Bool.eq_false_iff.mp hname)]
      exact mem_namesInFields_of_mem_names fs key x hx
  | .null, _, h | .bool _, _, h | .int _, _, h | .float _, _, h | .nan _, _, h | .str _, _, h
  | .bytes _, _, h | .list _, _, h => by cases h

theorem mem_namesInFields_of_mem_names : ∀ (fs : List (String × Value)) (key x : String),
      x ∈ ((Node.ofFieldValues fs).getD key (.itself .null)).names → x ∈ Check.namesInFields fs
  | [], _, _, h => by cases h
  | (k, v) :: rest, key, x, h => by
    rw [Check.namesInFields, mem_append]
    change x ∈ (Option.getD (if k == key then some (Node.ofValue v) else
      (Node.ofFieldValues rest).get? key) (.itself .null)).names at h
    split at h
    · exact .inl (mem_namesIn_of_mem_names v x h)
    · exact .inr (mem_namesInFields_of_mem_names rest key x h)

end

end Expr

namespace Step

def expressions (s : Step) : List Value := match s.verb with
  | "Make" | "Return" => [s.firstArg ["expr", "value"]]
  | "Show" => [s.firstArg ["expr", "value", "text"]]
  | "Ask" => [s.args.getD "default" (.str "")]
  | "Choose" =>
    (((s.arg "branches").orElse (.list [])).items.toOption.getD []).map (·.field "when")
  | "Repeat" => ["start", "end", "step"].map (s.arg "range").field
  | "Call" =>
    ((s.arg "inputs").obj?.getD []).map Prod.snd ++ ["fromExpr", "url", "http"].map s.arg
  | _ => []

def looksUp (s : Step) : List String := s.expressions.flatMap Expr.reads

end Step

variable {vs : List Value}

namespace Run

open Session Law Overlay

def ReadsUnbound (name : String) (s : Session) (v : Value) : Prop :=
  ∃ st, Step.ofValue v = .ok st ∧ name ∈ st.looksUp ∧ s.env.get? name = none

/-- A name stands in an expression of a step or of one inside it. -/
inductive Mentions (name : String) : Value → Prop
  | own {v : Value} {st : Step} (hv : Step.ofValue v = .ok st) (h : name ∈ st.looksUp) :
      Mentions name v
  | inside {v t : Value} {xs : List Value} (hxs : Takes v xs) (ht : t ∈ xs)
      (h : Mentions name t) : Mentions name v

/-- A step that binds a name, if it ends well and goes on. -/
inductive Binds (s : Session) (name : String) : Value → Prop
  | ask {v : Value} {st : Step} (hv : Step.ofValue v = .ok st) (hverb : st.verb = "Ask")
      (hstore : st.arg "store" = .str name) (hname : name ≠ "") : Binds s name v
  | make {v : Value} {st : Step} (hv : Step.ofValue v = .ok st) (hverb : st.verb = "Make")
      (hname : st.arg "name" = .str name) : Binds s name v
  | call {v : Value} {st : Step} (hv : Step.ofValue v = .ok st) (hcall : IsModuleCall st)
      (hresult : st.arg "result" = .str name)
      (hcallee : (calleeOf s (st.arg "module")).isNull = false) : Binds s name v

/-! ### Runs that bind a name in time -/

/-- The law that a variable is bound, unless the run has failed. -/
def bindsAlways (name : String) : Law where
  holds e s := e = none → s.env.get? name ≠ none
  faults _ _ h := nomatch h
  binds := by
    intro s other _ v h _
    by_cases hother : other = name
    · subst hother
      exact fun hnone => Option.some_ne_none v ((Fields.get?_put_self _ _ _).symm.trans hnone)
    · exact fun hnone => h rfl ((Fields.get?_put_of_ne _ hother v).symm.trans hnone)
  records _ _ h := h
  calls _ h := h
  shows _ _ h := ⟨fun _ _ => (nomatch ·), fun _ _ => h⟩
  fetches _ h := h
  refuses _ _ _ _ h := nomatch h

section

variable {name : String} (other : Value → Run Outcome)

open Classical in
theorem relates_of_not_mentions (s₀ : Session) (depth : Nat) (h : ¬Mentions name v) :
    (staying .same s₀.settings).Relates (divert (ReadsUnbound name) other depth v)
      (takeStep depth v) := by
  rw [takeStep_eq_divert other depth]
  have hnever (s : Session) (v : Value) (hv : ¬Mentions name v) : ¬ReadsUnbound name s v :=
    fun ⟨_, hst, hname, _⟩ => hv (.own hst hname)
  exact relates_divert (r := (¬Mentions name ·)) (fun _ => trivial)
    (fun v xs hv hxs t ht h => hv (.inside hxs ht h))
    (fun s v hv _ => iff_of_false (hnever s v hv) id) (fun s v hv _ hp => absurd hp (hnever s v hv))
    (fun s _ _ hs _ _ _ => governs_askStep (fun _ _ => trivial) (fun _ _ h => h) s hs)
    (fun _ _ _ _ _ hs _ => hs) (fun _ _ hs => hs) depth h

open Classical in
theorem relates_of_bound (depth : Nat) (v : Value) :
    (bindsAlways name).Relates (divert (ReadsUnbound name) other depth v) (takeStep depth v) := by
  rw [takeStep_eq_divert other depth]
  have hnever (s : Session) (v : Value) (hs : s.env.get? name ≠ none) : ¬ReadsUnbound name s v :=
    fun ⟨_, _, _, hnone⟩ => hs hnone
  exact relates_divert (L := bindsAlways name) (r := fun _ => True) (fun _ => trivial)
    (fun _ _ _ _ _ _ => trivial)
    (fun s v _ hs => iff_of_false (hnever s v (hs rfl)) id)
    (fun s v _ hs hp => absurd hp (hnever s v (hs rfl)))
    (fun s _ _ hs _ _ _ => governs_askStep (fun _ _ => trivial) (fun _ _ h => h) s hs)
    (fun _ _ _ _ _ hs _ _ => hs rfl) (fun _ _ _ => (nomatch ·)) depth trivial

end

theorem get?_env_bindArg {step : Step} {arg : String} {u : Unit} (harg : step.arg arg = .str name)
    (h : s.run (bindArg step arg v) = (.ok u, t)) : t.env.get? name = some v := by
  rw [bindArg, harg] at h
  obtain ⟨_, rfl⟩ := mk.inj h
  exact Fields.get?_put_self _ _ _

theorem calleeOf_congr (h : s.registry = t.registry) (target : Value) :
    calleeOf s target = calleeOf t target := by
  unfold calleeOf Session.module?
  rw [h]

variable {s₀ : Session}

theorem ne_none_of_binds (hbinds : Binds s₀ name v) (hs : s.registry = s₀.registry)
    (h : s.run (takeStep depth v) = (.ok none, t)) : t.env.get? name ≠ none := by
  cases depth with
  | zero => cases (mk.inj h).1
  | succ depth =>
    rw [takeStep_succ] at h
    cases hbinds with
    | @ask st hv hverb hstore hname =>
      obtain ⟨verb, args, raw⟩ := st
      obtain rfl : verb = "Ask" := hverb
      rw [step, hv] at h
      obtain ⟨e, hrun⟩ | ⟨default, answer, t', _, hrun, _, hanswer⟩ := askStep_cases s hv
      · cases (mk.inj (hrun.symm.trans h)).1
      · obtain ⟨_, rfl⟩ := mk.inj (hrun.symm.trans h)
        exact (hanswer name hstore hname).2
    | @make st hv hverb hname =>
      obtain ⟨verb, args, raw⟩ := st
      obtain rfl : verb = "Make" := hverb
      rw [step, hv] at h
      change s.run (makeStep _ _) = _ at h
      rw [makeStep, hname] at h
      dsimp only at h
      split at h
      · cases (mk.inj h).1
      · obtain ⟨a, u, hrun, h⟩ := exists_of_run_bind h
        obtain ⟨_, rfl⟩ := mk.inj h
        exact fun hnone =>
          Option.some_ne_none a ((Fields.get?_put_self _ _ _).symm.trans hnone)
    | @call st hv hcall hresult hcallee =>
      rw [hcall.run_step hv] at h
      obtain ⟨_, u, hnoted, h⟩ := exists_of_run_bind h
      obtain ⟨_, rfl⟩ := mk.inj hnoted
      dsimp only at h
      split at h
      · obtain ⟨inputs, u, hinputs, h⟩ := exists_of_run_bind h
        rw [(steady_callInputs _).run_eq] at hinputs
        obtain ⟨_, rfl⟩ := mk.inj hinputs
        obtain ⟨x, u, hget, h⟩ := exists_of_run_bind h
        obtain ⟨hx, rfl⟩ := mk.inj hget
        cases hx
        -- the module is found where the call looks for it
        change Session.run _ (if (calleeOf s (st.arg "module")).isNull then _ else _) = _ at h
        rw [calleeOf_congr hs, hcallee, if_neg Bool.false_ne_true] at h
        obtain ⟨out, u, _, h⟩ := exists_of_run_bind h
        obtain ⟨_, u, _, h⟩ := exists_of_run_bind h
        obtain ⟨_, u, hbind, h⟩ := exists_of_run_bind h
        obtain ⟨_, rfl⟩ := mk.inj h
        rw [get?_env_bindArg hresult hbind]
        exact Option.some_ne_none _
      · cases (mk.inj h).1

/-- No step mentions a name before one binds it. -/
inductive Fine (s : Session) (name : String) : List Value → Prop
  | nil : Fine s name []
  | pass {v : Value} {rest : List Value} (hv : ¬Mentions name v) (h : Fine s name rest) :
      Fine s name (v :: rest)
  | binds {v : Value} {rest : List Value} (hv : ¬Mentions name v) (hbinds : Binds s name v) :
      Fine s name (v :: rest)

open Classical in
theorem run_steps_of_fine {xs : List Value} (h : Fine s₀ name xs)
    (other : Value → Run Outcome) (depth : Nat) (hs : s.settings = s₀.settings) :
    s.run (steps (divert (ReadsUnbound name) other depth) xs) =
      s.run (steps (takeStep depth) xs) := by
  -- along `Fine`: up to the step that binds the law keeps the registry, and from there on the
  -- variable
  induction h generalizing s with
  | nil => rfl
  | @pass v rest hv _ ih =>
    obtain ⟨heq, hafter⟩ := relates_of_not_mentions other s₀ depth hv s hs
    have heq : s.run (takeStep depth v) = s.run (divert (ReadsUnbound name) other depth v) := heq
    rw [steps_cons, steps_cons, run_andThen, run_andThen, heq]
    rcases hrun : s.run (divert (ReadsUnbound name) other depth v) with ⟨e | _ | out, t⟩
    · rfl
    · rw [hrun] at hafter
      exact ih hafter
    · rfl
  | @binds v rest hv hbinds =>
    obtain ⟨heq, _⟩ := relates_of_not_mentions other s₀ depth hv s hs
    have heq : s.run (takeStep depth v) = s.run (divert (ReadsUnbound name) other depth v) := heq
    rw [steps_cons, steps_cons, run_andThen, run_andThen, ← heq]
    rcases hrun : s.run (takeStep depth v) with ⟨e | _ | out, t⟩
    · rfl
    · have hbound := ne_none_of_binds hbinds (congrArg (·.2.2.1) hs) hrun
      exact (relates_steps (fun v _ => relates_of_bound other depth v) t fun _ => hbound).1.symm
    · rfl

open Classical in
theorem avoids_of_fine (hm : HasSteps m vs) (h : Fine s name vs) (depth : Nat)
    (inputs : Fields Value) : Avoids (ReadsUnbound name) depth m inputs s := by
  intro other
  rw [run_moduleWith hm, run_moduleWith hm, run_bind, run_bind,
    run_steps_of_fine h other depth (s := begun s inputs) rfl]

/-- A step that the check does not look at, or trusts, as far as a name goes. -/
inductive Overlooks (s : Session) (name : String) : Value → Prop
  /-- Neither the range nor the steps of a repetition are looked at. -/
  | loop {v : Value} {st : Step} (hv : Step.ofValue v = .ok st) (hverb : st.verb = "Repeat")
      (h : Mentions name v) : Overlooks s name v
  /-- Nor is the default of an `Ask`. -/
  | ask {v : Value} {st : Step} (hv : Step.ofValue v = .ok st) (hverb : st.verb = "Ask")
      (h : name ∈ st.looksUp) : Overlooks s name v
  /-- A step that reads the name which it binds counts it as bound. -/
  | own {v : Value} {st : Step} (hv : Step.ofValue v = .ok st) (hverb : st.verb ∈ ["Make", "Call"])
      (htarget : name ∈ st.targets) (h : name ∈ st.looksUp) : Overlooks s name v
  /-- A call of a module that is not known does not bind its result. -/
  | unknown {v : Value} {st : Step} (hv : Step.ofValue v = .ok st) (hverb : st.verb = "Call")
      (hresult : st.arg "result" = .str name)
      (hcallee : (calleeOf s (st.arg "module")).isNull) : Overlooks s name v

theorem mem_looksUp_of_mentions {st : Step} (hv : Step.ofValue v = .ok st)
    (hverb : st.verb ∈ plainVerbs) (h : Mentions name v) : name ∈ st.looksUp := by
  cases h with
  | own hv' h =>
    obtain rfl := ok.inj (hv.symm.trans hv')
    exact h
  | inside hxs =>
    cases hxs with
    | branch hv' hchoose =>
      obtain rfl := ok.inj (hv.symm.trans hv')
      rw [hchoose] at hverb
      exact absurd hverb (by decide)
    | block hv' hrepeat =>
      obtain rfl := ok.inj (hv.symm.trans hv')
      rw [hrepeat] at hverb
      exact absurd hverb (by decide)

end Run

variable {raw : String}

theorem Step.mem_namesIn_of_looksUp {args : Fields Value}
    (hverb : verb ∈ ["Make", "Return", "Show"])
    (hno : args.getD "value" .null = .null ∧ args.getD "text" .null = .null)
    (h : x ∈ looksUp ⟨verb, args, raw⟩) : x ∈ Check.namesIn (args.getD "expr" .null) := by
  -- the verbs differ only in where else they look
  obtain ⟨names, hnames, hreads⟩ : ∃ names, (∀ n ∈ names, n ∈ ["expr", "value", "text"]) ∧
      looksUp ⟨verb, args, raw⟩ = Expr.reads (firstArg ⟨verb, args, raw⟩ names) := by
    simp only [mem_cons, not_mem_nil, or_false] at hverb
    rcases hverb with rfl | rfl | rfl
    · exact ⟨["expr", "value"], by decide, append_nil _⟩
    · exact ⟨["expr", "value"], by decide, append_nil _⟩
    · exact ⟨["expr", "value", "text"], by decide, append_nil _⟩
  rw [hreads, firstArg] at h
  cases hfind : (names.map (arg ⟨verb, args, raw⟩)).find? (!·.isNull) with
  | none =>
    rw [hfind] at h
    cases h
  | some v =>
    rw [hfind] at h
    obtain ⟨n, hn, rfl⟩ := mem_map.mp (mem_of_find?_eq_some hfind)
    have hn := hnames n hn
    simp only [mem_cons, not_mem_nil, or_false] at hn
    rcases hn with rfl | rfl | rfl
    · exact Expr.mem_namesIn_of_mem_names _ x h
    · rw [arg, hno.1] at h
      cases h
    · rw [arg, hno.2] at h
      cases h

/-! ### What a clean report says -/

namespace Check

open Run Law

theorem foldl_warn {α : Type} (f : Findings) (xs : List α) (g : α → String) :
    xs.foldl (fun f x => f.warn (g x)) f = { f with warnings := f.warnings ++ xs.map g } := by
  induction xs generalizing f with
  | nil => rw [foldl_nil, map_nil, append_nil]
  | cons x xs ih =>
    rw [foldl_cons, ih]
    simp only [Findings.warn, map_cons, append_assoc, singleton_append]

/-- A check has seen that some names are bound. -/
structure Passes (f g : Findings) (names : List String) : Prop where
  warnings : f.warnings = []
  bound : g.bound = f.bound
  names : ∀ x ∈ names, x ∈ f.bound

theorem passes_checkNames {names : List String} {warning : String → String}
    (h : (f.checkNames names warning).warnings = []) :
    Passes f (f.checkNames names warning) names := by
  unfold Findings.checkNames at h ⊢
  rw [foldl_warn] at h ⊢
  obtain ⟨hwarnings, hnames⟩ := append_eq_nil_iff.mp h
  refine ⟨hwarnings, rfl, fun x hx => ?_⟩
  have hseen := filter_eq_nil_iff.mp (map_eq_nil_iff.mp hnames) x hx
  exact contains_iff_mem.mp (by simpa using hseen)

theorem passes_of_warned {g : Findings} {texts names : List String}
    (h : Passes (texts.foldl Findings.warn f) g names) : Passes f g names := by
  have hwarn : texts.foldl Findings.warn f = _ := foldl_warn f texts id
  rw [hwarn] at h
  exact ⟨(append_eq_nil_iff.mp h.warnings).1, h.bound, h.names⟩

def checkInput (place : String) (f : Findings) (i : String × Value) : Findings := if i.2.isObj then
    f.checkNames (namesIn i.2) fun name => place ++ ": call input '" ++ i.1 ++ "' references '" ++
      name ++ "' which may be undefined"
  else f

variable {inputs : Fields Value}

theorem passes_checkInputs {place : String}
    (h : (inputs.foldl (checkInput place) f).warnings = []) :
    Passes f (inputs.foldl (checkInput place) f) ((inputs.map Prod.snd).flatMap Expr.reads) := by
  induction inputs generalizing f with
  | nil => exact ⟨h, rfl, fun x hx => absurd hx not_mem_nil⟩
  | cons i rest ih =>
    obtain ⟨hwarnings, hbound, hrest⟩ := ih h
    have hfirst : Passes f (checkInput place f i) (Expr.reads i.2) := by
      unfold checkInput at hwarnings ⊢
      split at hwarnings
      · rename_i hobj
        rw [if_pos hobj]
        obtain ⟨hf, hb, hnames⟩ := passes_checkNames hwarnings
        exact ⟨hf, hb, fun x hx => hnames x (Expr.mem_namesIn_of_mem_names _ x hx)⟩
      · rename_i hobj
        rw [if_neg hobj]
        refine ⟨hwarnings, rfl, fun x hx => ?_⟩
        cases hi : i.2 with
        | obj fs => exact absurd (by rw [hi]; rfl) hobj
        | _ =>
          rw [hi] at hx
          cases hx
    refine ⟨hfirst.warnings, hbound.trans hfirst.bound, fun x hx => ?_⟩
    rw [map_cons, flatMap_cons, mem_append] at hx
    exact hx.elim (hfirst.names x) fun hx => hfirst.bound ▸ hrest x hx

theorem eq_of_mem_bind (hname : name ∉ f.bound) (h : name ∈ (f.bind v).bound) :
    v = .str name ∧ name ≠ "" := by
  unfold Findings.bind at h
  split at h
  · split at h
    · exact absurd h hname
    · rename_i hempty
      obtain rfl := (mem_cons.mp h).resolve_right hname
      exact ⟨rfl, fun he => hempty (String.isEmpty_iff.mpr he)⟩
  · exact absurd h hname

theorem warnings_bind (f : Findings) (v : Value) : (f.bind v).warnings = f.warnings := by
  unfold Findings.bind
  split
  · split <;> rfl
  · rfl

/-- A step is overlooked, or the name does not stand in it and is bound by it or not at all. -/
def Cleared (s : Session) (name : String) (v : Value) (f : Findings) : Prop :=
  Overlooks s name v ∨ ¬Mentions name v ∧ (Binds s name v ∨ name ∉ f.bound)

section

variable {s : Session} {name : String} {f g : Findings} {v : Value} {args : Fields Value}

theorem cleared_line (hv : Step.ofValue v = .ok ⟨verb, args, raw⟩) (hplain : verb ∈ plainVerbs)
    (hread : name ∈ Step.looksUp ⟨verb, args, raw⟩ → Overlooks s name v)
    (hbound : name ∈ f.bound → Overlooks s name v ∨ Binds s name v) : Cleared s name v f := by
  by_cases hname : name ∈ looksUp ⟨verb, args, raw⟩
  · exact .inl (hread hname)
  · have hnot : ¬Mentions name v := fun h => hname (mem_looksUp_of_mentions hv hplain h)
    by_cases hmem : name ∈ f.bound
    · exact (hbound hmem).imp_right fun h => ⟨hnot, .inl h⟩
    · exact .inr ⟨hnot, .inr hmem⟩

variable {e : Value}

theorem cleared_expr (hv : Step.ofValue v = .ok ⟨verb, [("expr", e)], verb⟩)
    (hplain : verb ∈ plainVerbs) (hverb : verb ∈ ["Make", "Return", "Show"])
    (hpass : Passes f g (namesIn e)) (hname : name ∉ f.bound) : Cleared s name v g := by
  refine cleared_line hv hplain (fun h => absurd (hpass.names name ?_) hname)
    fun h => absurd (hpass.bound ▸ h) hname
  exact mem_namesIn_of_looksUp hverb ⟨rfl, rfl⟩ h

variable {n : String}

theorem cleared_ask (hv : Step.ofValue v = .ok ⟨"Ask", args, "Ask"⟩)
    (hstore : args.getD "store" .null = .str n) (hname : name ∉ f.bound) :
    Cleared s name v (f.bind (.str n)) := by
  refine cleared_line hv (by decide) (.ask hv rfl) fun hmem => .inr ?_
  obtain ⟨hn, hne⟩ := eq_of_mem_bind hname hmem
  exact .ask hv rfl (hstore.trans hn) hne

theorem cleared_make (hv : Step.ofValue v = .ok ⟨"Make", [("name", .str n), ("expr", e)], "Make"⟩)
    (hpass : Passes (f.bind (.str n)) g (namesIn e)) (hname : name ∉ f.bound) :
    Cleared s name v g := by
  refine cleared_line hv (by decide) (fun h => ?_) fun h => .inr ?_
  · -- the name counts as bound when the expression is looked at
    obtain ⟨hn, _⟩ := eq_of_mem_bind hname
      (hpass.names name (mem_namesIn_of_looksUp (by decide) ⟨rfl, rfl⟩ h))
    exact .own hv (show "Make" ∈ _ by decide) (mem_targets (a := "name") (by decide) hn) h
  · obtain ⟨hn, _⟩ := eq_of_mem_bind hname (hpass.bound ▸ h)
    exact .make hv rfl hn

variable {inner : Findings → Value → Except Error Findings}

theorem cleared_call {target : String}
    (hargs : args = [("module", .str target), ("inputs", .obj inputs)] ∨ ∃ result,
      args = [("module", .str target), ("inputs", .obj inputs), ("result", .str result)])
    (h : checkStep inner f number (stepValue "Call" args) = .ok g) (hclean : g.warnings = []) :
    f.warnings = [] ∧ (name ∉ f.bound → Cleared s name (stepValue "Call" args) g) := by
  obtain ⟨hv, hcall, hreads, place, hg⟩ :
      ofValue (stepValue "Call" args) = .ok ⟨"Call", args, "Call"⟩ ∧
      IsModuleCall ⟨"Call", args, "Call"⟩ ∧
      (∀ x ∈ looksUp ⟨"Call", args, "Call"⟩, x ∈ (inputs.map snd).flatMap Expr.reads) ∧
      ∃ place, inputs.foldl (checkInput place) (f.bind (args.getD "result" .null)) = g := by
    rcases hargs with rfl | ⟨result, rfl⟩
    all_goals
      refine ⟨ofValue_stepValue (by decide) _, ⟨rfl, rfl, ?_⟩, fun x hx => ?_, ?_⟩
      · simp only [mem_cons, not_mem_nil, or_false]
        rintro other (rfl | rfl | rfl) <;> rfl
      · change x ∈ (inputs.map snd ++ [null, .null, .null]).flatMap Expr.reads at hx
        rw [flatMap_append, mem_append] at hx
        exact hx.resolve_right not_mem_nil
      · cases inputs <;> exact ⟨_, ok.inj h⟩
  subst hg
  obtain ⟨hwarnings, hbound, hnames⟩ := passes_checkInputs hclean
  refine ⟨warnings_bind f _ ▸ hwarnings, fun hname => ?_⟩
  refine cleared_line hv (by decide) (fun h => ?_) fun h => ?_
  · obtain ⟨hn, _⟩ := eq_of_mem_bind hname (hnames name (hreads name h))
    exact .own hv (show "Call" ∈ _ by decide) (mem_targets (a := "result") (by decide) hn) h
  · obtain ⟨hn, _⟩ := eq_of_mem_bind hname (hbound ▸ h)
    cases hcallee : (calleeOf s (arg ⟨"Call", args, "Call"⟩ "module")).isNull with
    | true => exact .inl (.unknown hv rfl hn hcallee)
    | false => exact .inr (.call hv hcall hn hcallee)

theorem cleared_spoken (hv : IsSpoken v)
    (h : checkStep inner f number v = .ok g) (hclean : g.warnings = []) :
    f.warnings = [] ∧ (name ∉ f.bound → Cleared s name v g) := by
  cases hv with
  | @expr verb hverb e =>
    simp only [mem_cons, not_mem_nil, or_false] at hverb
    rcases hverb with rfl | rfl
    · obtain rfl : ((booleanUses _ e).foldl Findings.warn f).checkNames (namesIn e) _ = g :=
        ok.inj h
      have hpass := passes_of_warned (passes_checkNames hclean)
      exact ⟨hpass.warnings, cleared_expr (ofValue_stepValue (by decide) _) (by decide)
        (by decide) hpass⟩
    · -- of a verb that the check does not know it looks at all arguments
      obtain rfl : f.checkNames (namesIn (.obj [("expr", e)])) _ = g := ok.inj h
      obtain ⟨hwarnings, hbound, hnames⟩ := passes_checkNames hclean
      exact ⟨hwarnings, cleared_expr (ofValue_stepValue (by decide) _) (by decide) (by decide)
        ⟨hwarnings, hbound, fun x hx => hnames x (mem_append_left _ hx)⟩⟩
  | @bare verb hverb =>
    simp only [mem_cons, not_mem_nil, or_false] at hverb
    rcases hverb with rfl | rfl | rfl
    all_goals
      obtain rfl : f = g := ok.inj h
      exact ⟨hclean, fun hname => cleared_line (ofValue_stepValue (by decide) []) (by decide)
        (fun h => absurd h not_mem_nil) fun h => absurd h hname⟩
  | ask n | askOr n default =>
    obtain rfl : f.bind (.str n) = g := ok.inj h
    rw [warnings_bind] at hclean
    exact ⟨hclean, cleared_ask (ofValue_stepValue (by decide) _) rfl⟩
  | make n e =>
    obtain rfl : (f.bind (.str n)).checkNames (namesIn e) _ = g := ok.inj h
    have hpass := passes_checkNames hclean
    exact ⟨warnings_bind f _ ▸ hpass.warnings, cleared_make (ofValue_stepValue (by decide) _) hpass⟩
  | call target inputs => exact cleared_call (.inl rfl) h hclean
  | callAs target inputs result => exact cleared_call (.inr ⟨result, rfl⟩) h hclean

theorem cleared_loop {loop : Value} {block : List Value} (hloop : IsLoopArgs loop)
    (h : checkStep (checkSteps depth) f number (loopStep loop block) = .ok g)
    (hclean : g.warnings = []) :
    f.warnings = [] ∧ (name ∉ f.bound → Cleared s name (loopStep loop block) g) := by
  have hsame : g = f := by
    cases depth with
    | zero => rcases hloop with rfl | ⟨i, range, rfl⟩ <;> cases h
    | succ depth =>
      rcases hloop with rfl | ⟨i, range, rfl⟩ <;> exact (ok.inj h).symm
  subst hsame
  refine ⟨hclean, fun hname => ?_⟩
  by_cases hmentions : Mentions name (loopStep loop block)
  · left
    rcases hloop with rfl | ⟨i, range, rfl⟩
    · exact @Overlooks.loop _ _ _ ⟨"Repeat", _, "Repeat"⟩ rfl rfl hmentions
    · exact .loop (ofValue_loopStep i range block) rfl hmentions
  · exact .inr ⟨hmentions, .inr hname⟩

theorem cleared_node {n : Node Unit} (hread : ∀ e ∈ n.entries, e.IsRead)
    (h : checkStep (checkSteps depth) f number n.toValue = .ok g) (hclean : g.warnings = []) :
    f.warnings = [] ∧ (name ∉ f.bound → Cleared s name n.toValue g) := by
  cases n with
  | line st => exact cleared_spoken (hread _ mem_cons_self) h hclean
  | loop origin args block => exact cleared_loop (hread _ mem_cons_self) h hclean

/-- A flow that is built and has a clean report is fine as far as a name goes, or a step is
    overlooked before any binds the name. -/
theorem fine_or_overlooks {ns : List (Node Unit)} (hread : ∀ e ∈ Node.entriesOf ns, e.IsRead)
    (h : checkList (checkSteps depth) number f (Node.toValues ns) = .ok g)
    (hclean : g.warnings = []) :
    f.warnings = [] ∧ (name ∉ f.bound → Fine s name (Node.toValues ns) ∨
      ∃ before v after, Node.toValues ns = before ++ v :: after ∧
        (∀ w ∈ before, ¬Binds s name w) ∧ Overlooks s name v) := by
  induction ns generalizing f number with
  | nil =>
    obtain rfl : f = g := ok.inj h
    exact ⟨hclean, fun _ => .inl .nil⟩
  | cons n ns ih =>
    rw [Node.entriesOf] at hread
    rw [Node.toValues] at h ⊢
    obtain ⟨f', hstep, h⟩ := of_bind_ok h
    obtain ⟨hclean', hrest⟩ := ih (fun e he => hread e (mem_append_right _ he)) h
    obtain ⟨hwarnings, hn⟩ :=
      cleared_node (fun e he => hread e (mem_append_left _ he)) hstep hclean'
    refine ⟨hwarnings, fun hname => ?_⟩
    obtain hover | ⟨hnot, hafter⟩ := hn hname
    · exact .inr ⟨[], _, _, rfl, fun w hw => absurd hw not_mem_nil, hover⟩
    · by_cases hbinds : Binds s name n.toValue
      · exact .inl (.binds hnot hbinds)
      · -- nothing is known of the name yet, so it is left to the steps after this one
        refine (hrest (hafter.resolve_left hbinds)).imp (.pass hnot) ?_
        rintro ⟨before, v, after, hflow, hbefore, hover⟩
        refine ⟨n.toValue :: before, v, after, by rw [hflow]; rfl, ?_, hover⟩
        exact forall_mem_cons.mpr ⟨hbinds, hbefore⟩

end

theorem checkModule_of_hasSteps (hm : HasSteps m vs) :
    checkModule m = checkList (checkSteps m.depth) 1 {} vs := by
  have hflow : m.lookupD "flow" (.list []) = .ok (.list vs) := by
    obtain ⟨fs, rfl⟩ := exists_of_isObj hm.isObj
    exact congrArg (fun r => ok (Option.getD r (.list []))) hm.flow
  rw [checkModule, hflow]
  cases vs <;> rfl

end Check

theorem Flow.exists_isRead_of_ofTree {tree : Value} (h : Module.ofTree tree = .ok m) :
    ∃ ns : List (Node Unit), Run.HasSteps m (Node.toValues ns) ∧
      ∀ e ∈ Node.entriesOf ns, e.IsRead := by
  rw [Module.ofTree] at h
  split at h
  · cases h
  · obtain ⟨inputs, _, h⟩ := of_bind_ok h
    obtain ⟨outputs, _, h⟩ := of_bind_ok h
    obtain ⟨raw, _, h⟩ := of_bind_ok h
    obtain ⟨flow, hflow, h⟩ := of_bind_ok h
    obtain ⟨canon, hcanon, h⟩ := of_bind_ok h
    obtain ⟨tests, _, h⟩ := of_bind_ok h
    cases h
    obtain ⟨ns, rfl, hread⟩ := exists_isRead_of_buildFlow hflow
    obtain ⟨ms, hms, hperm⟩ := Node.canonical_toValues ns
    obtain rfl := ok.inj (hms.symm.trans hcanon)
    refine ⟨ms, ?_, fun e he => hread e (hperm.mem_iff.mpr he)⟩
    split
    · exact ⟨rfl, rfl, rfl, rfl, rfl⟩
    · exact ⟨rfl, rfl, rfl, rfl, rfl⟩

open Classical in
/-- A module that was built has a clean report. Then a run never comes to a step that reads a
    name unbound, or the check has overlooked a step that comes before any binds the name. -/
theorem reads_bound_or_overlooked {tree m : Value} {f : Check.Findings}
    (hm : Module.ofTree tree = .ok m) (hf : Check.checkModule m = .ok f)
    (hclean : f.errors = [] ∧ f.warnings = []) (s : Session) (name : String)
    (inputs : Fields Value) : Run.Avoids (Run.ReadsUnbound name) Run.depthLimit m inputs s ∨
      ∃ before v after, m.field "flow" = .list (before ++ v :: after) ∧
        (∀ w ∈ before, ¬Run.Binds s name w) ∧ Run.Overlooks s name v := by
  obtain ⟨ns, hsteps, hread⟩ := Flow.exists_isRead_of_ofTree hm
  have hflow : m.field "flow" = .list (Flow.Node.toValues ns) := by
    rw [field, hsteps.flow, Option.getD_some]
  rw [Check.checkModule_of_hasSteps hsteps] at hf
  obtain ⟨_, hcases⟩ := Check.fine_or_overlooks hread hf hclean.2
  refine (hcases List.not_mem_nil).imp (Run.avoids_of_fine hsteps · _ inputs) ?_
  rintro ⟨before, v, after, hsplit, hrest⟩
  exact ⟨before, v, after, hflow.trans (congrArg list hsplit), hrest⟩

/-- A repetition that shows a name which nothing binds. -/
def loopTree : Value :=
  .obj [("Flow", .obj [("steps", .list [lineAt 0 "Repeat" "i in a..b", lineAt 1 "Show" "x"])])]

def loopModule : Value :=
  .obj [("type", .str "Module"), ("name", .str "<anonymous>"), ("purpose", .str ""),
    ("version", .str "2.1"), ("astVersion", .str "2.1.0"), ("inputs", .list []),
    ("outputs", .list []), ("flow", .list [loopStep (.obj [("iter", .str "i"),
      ("range", .obj [("type", .str "Range"), ("start", nameOf "a"), ("end", nameOf "b"),
        ("inclusive", .bool true)])]) [stepValue "Show" [("expr", nameOf "x")]]])]

open Classical in
/-- Its report is clean, although nothing binds what it reads. -/
theorem reads_bound_or_overlooked_loop :
    Module.ofTree loopTree = .ok loopModule ∧ Check.checkModule loopModule = .ok {} ∧
      ∀ s name, Run.Avoids (Run.ReadsUnbound name) Run.depthLimit loopModule [] s ∨
        ∃ before v after, loopModule.field "flow" = .list (before ++ v :: after) ∧
          (∀ w ∈ before, ¬Run.Binds s name w) ∧ Run.Overlooks s name v := by
  have hm : Module.ofTree loopTree = .ok loopModule := eq_ok_of_isCopy (by decide +kernel)
  have hf : Check.checkModule loopModule = .ok {} := by rfl
  exact ⟨hm, hf, fun s name => reads_bound_or_overlooked hm hf ⟨rfl, rfl⟩ s name []⟩

/-! ### Errors that are never reported -/

namespace Check

variable {inner : Findings → Value → Except Error Findings} {f : Findings} {number depth : Nat}
  {v : Value}

theorem errors_bind (f : Findings) (v : Value) : (f.bind v).errors = f.errors := by
  unfold Findings.bind
  split
  · split <;> rfl
  · rfl

theorem errors_warned (f : Findings) (texts : List String) :
    (texts.foldl Findings.warn f).errors = f.errors := by
  have hwarn : texts.foldl Findings.warn f = _ := foldl_warn f texts id
  rw [hwarn]

theorem errors_checkNames (f : Findings) (names : List String) (warning : String → String) :
    (f.checkNames names warning).errors = f.errors := by
  rw [Findings.checkNames, foldl_warn]

theorem errors_checkInputs (f : Findings) (place : String) (inputs : Fields Value) :
    (inputs.foldl (checkInput place) f).errors = f.errors := by
  induction inputs generalizing f with
  | nil => rfl
  | cons i rest ih =>
    rw [foldl_cons, ih, checkInput]
    split
    · exact errors_checkNames f _ _
    · rfl

/-- A step is checked and no error is added. -/
def Excuses (inner : Findings → Value → Except Error Findings) (f : Findings) (number : Nat)
    (v : Value) : Prop :=
  ∃ g, checkStep inner f number v = .ok g ∧ g.errors = f.errors

theorem excuses_spoken (hv : IsSpoken v) : Excuses inner f number v := by
  cases hv with
  | @expr verb hverb e =>
    simp only [mem_cons, not_mem_nil, or_false] at hverb
    rcases hverb with rfl | rfl
    · exact ⟨_, rfl, (errors_checkNames _ _ _).trans (errors_warned f _)⟩
    · exact ⟨_, rfl, errors_checkNames _ _ _⟩
  | @bare verb hverb =>
    simp only [mem_cons, not_mem_nil, or_false] at hverb
    rcases hverb with rfl | rfl | rfl <;> exact ⟨_, rfl, rfl⟩
  | ask n | askOr n default => exact ⟨_, rfl, errors_bind f _⟩
  | make n e => exact ⟨_, rfl, (errors_checkNames _ _ _).trans (errors_bind f _)⟩
  | call target inputs | callAs target inputs result =>
    cases inputs with
    | nil => exact ⟨_, rfl, errors_bind f _⟩
    | cons i rest => exact ⟨_, rfl, (errors_checkInputs _ _ (i :: rest)).trans (errors_bind f _)⟩

/-- The check looks for the range and for the steps of a repetition where a built one has
    neither, so it finds nothing to check. -/
theorem excuses_loop {args : Value} (h : IsLoopArgs args) (block : List Value) :
    Excuses (checkSteps (depth + 1)) f number (loopStep args block) := by
  rcases h with rfl | ⟨name, range, rfl⟩ <;> exact ⟨f, rfl, rfl⟩

theorem excuses_nodes {ns : List (Node Unit)} (h : ∀ e ∈ Node.entriesOf ns, e.IsRead)
    (f : Findings) (number : Nat) :
    ∃ g, checkList (checkSteps (depth + 1)) number f (Node.toValues ns) = .ok g ∧
      g.errors = f.errors := by
  induction ns generalizing f number with
  | nil => exact ⟨f, rfl, rfl⟩
  | cons n ns ih =>
    rw [Node.entriesOf] at h
    obtain ⟨f', hstep, herrors⟩ : Excuses (checkSteps (depth + 1)) f number n.toValue := by
      have hn := fun e he => h e (mem_append_left _ he)
      cases n with
      | line st => exact excuses_spoken (hn _ mem_cons_self)
      | loop origin args block => exact excuses_loop (hn _ mem_cons_self) _
    obtain ⟨g, hrest, hg⟩ := ih (fun e he => h e (mem_append_right _ he)) f' (number + 1)
    refine ⟨g, ?_, hg.trans herrors⟩
    rw [Node.toValues, checkList, hstep]
    exact hrest

end Check

/-- The check finds no error in a module that was built, whatever its repetitions range over. -/
theorem built_module_has_no_errors {tree m : Value} (hm : Module.ofTree tree = .ok m) :
    ∃ f, Check.checkModule m = .ok f ∧ f.errors = [] ∧ Check.requireSound m = .ok () := by
  obtain ⟨ns, hsteps, hread⟩ := Flow.exists_isRead_of_ofTree hm
  obtain ⟨depth, hdepth⟩ : ∃ depth, m.depth = depth + 1 := by
    obtain ⟨fs, rfl⟩ := exists_of_isObj hsteps.isObj
    exact ⟨_, rfl⟩
  obtain ⟨f, hf, herrors⟩ := @Check.excuses_nodes depth ns hread {} 1
  rw [← hdepth, ← Check.checkModule_of_hasSteps hsteps] at hf
  refine ⟨f, hf, herrors, ?_⟩
  rw [Check.requireSound, hf]
  change (if !f.errors.isEmpty then _ else _) = _
  rw [herrors]
  rfl

/-- The repetition with texts for its bounds. -/
def textTree : Value := .obj [("Flow", .obj [("steps",
    .list [lineAt 0 "Repeat" "i in \"a\"..\"b\"", lineAt 1 "Show" "x"])])]

def textModule : Value := loopModule.setField "flow" (.list [loopStep (.obj [("iter", .str "i"),
    ("range", .obj [("type", .str "Range"), ("start", (Expr.text "a").toValue),
      ("end", (Expr.text "b").toValue), ("inclusive", .bool true)])])
    [stepValue "Show" [("expr", nameOf "x")]]])

theorem built_module_has_no_errors_texts :
    Module.ofTree textTree = .ok textModule ∧ Check.sortOf (Expr.text "a").toValue = .text ∧
      Check.requireSound textModule = .ok () := by
  have hm : Module.ofTree textTree = .ok textModule := eq_ok_of_isCopy (by decide +kernel)
  obtain ⟨_, _, _, hsound⟩ := built_module_has_no_errors hm
  exact ⟨hm, rfl, hsound⟩

end Loom
