import Loom.Proofs.Isolation

/-!
# Where the Inputs of a Call Come From

A call tells of every input where its value came from: the caller, or the default of the `Ask`
that stored it. The module decided that when it asked: a variable that is null or the empty text
is no answer, and the default takes its place. The call decides afterwards, by whether the
caller gave the input at all. So the two agree where the caller gave an answer or nothing, and
not where it gave null or the empty text; and a default that is null is told as missing.

An `Ask` sees what the caller gave as long as the variable was not bound anew before it.
-/

namespace Loom

open Fields Value

variable {α : Type} {key : String} {inputs : Fields Value}

theorem get?_putNew_of_get? {fs : Fields α} {v : α} (h : fs.get? key = some v)
    (name : String) (w : α) : (fs.putNew name w).get? key = some v := by
  unfold putNew
  split
  · exact h
  · rename_i hhas
    refine (get?_put_of_ne fs ?_ w).trans h
    rintro rfl
    exact hhas (by rw [has, h, Option.isSome_some])

theorem Value.eq_of_isText {v : Value} {text : String} (h : v.isText text) :
    v = .str text := by
  unfold isText at h
  split at h
  · rw [beq_iff_eq.mp h]
  · cases h

namespace Run

open Session Law

/-- An `Ask` that stores its answer under a name. -/
def AsksFor (key : String) (v : Value) : Prop :=
  ∃ st, Step.ofValue v = .ok st ∧ st.verb = "Ask" ∧ st.arg "store" = .str key

/-- The entries of the questions that stored a name. -/
def askedFor (key : String) (asked : List Value) : List Value :=
  asked.filter fun a => (a.field "store").isText key

/-! ### What a call tells -/

/-- What a call tells of an input, given the entry of its question. -/
def inputOf (inputs : Fields Value) (key : String) (a : Value) : Value := match inputs.get? key with
  | some v => inputDetail "caller" v
  | none =>
    inputDetail (if (a.field "value").isNull then "missing" else "default") (a.field "value")

/-- The details of a call with those of one more question. -/
def noteAsk (inputs acc : Fields Value) (a : Value) : Fields Value := match a.field "store" with
  | .str name => acc.put name (inputOf inputs name a)
  | _ => acc

theorem get?_noteAsk (inputs acc : Fields Value) (a : Value) (key : String) :
    (noteAsk inputs acc a).get? key =
      if (a.field "store").isText key then some (inputOf inputs key a) else acc.get? key := by
  unfold noteAsk
  split
  · rename_i name hname
    rw [hname]
    change _ = if (name == key) = true then _ else _
    by_cases hkey : name = key
    · subst hkey
      rw [get?_put_self, if_pos (beq_self_eq_true name)]
    · rw [get?_put_of_ne _ hkey, if_neg (mt beq_iff_eq.mp hkey)]
  · rename_i hstore
    rw [if_neg fun h => hstore key (eq_of_isText h)]

theorem get?_resolvedInputs {asked : List Value} {a : Value} (h : askedFor key asked = [a]) :
    (resolvedInputs inputs asked).get? key = some (inputOf inputs key a) := by
  -- the last question for a name has the last word
  have hasks (acc : Fields Value) : (asked.foldl (noteAsk inputs) acc).get? key =
      (askedFor key asked).foldl (fun _ a => some (inputOf inputs key a)) (acc.get? key) := by
    clear h
    induction asked generalizing acc with
    | nil => rfl
    | cons b rest ih =>
      rw [List.foldl_cons, ih, get?_noteAsk, askedFor, askedFor, List.filter_cons]
      split <;> rfl
  -- and what the caller gave besides does not touch it
  have hrest (more acc : Fields Value) (hacc : acc.get? key = some (inputOf inputs key a)) :
      (more.foldl (fun acc i => acc.putNew i.1 (inputDetail "caller" i.2)) acc).get? key =
        some (inputOf inputs key a) := by
    induction more generalizing acc with
    | nil => exact hacc
    | cons i more ih => exact ih _ (get?_putNew_of_get? hacc _ _)
  refine hrest inputs _ ?_
  refine (hasks []).trans ?_
  rw [h]
  rfl

/-! ### Answers -/

/-- The default of an `Ask`, as it comes out in a session. -/
def defaultIn (s : Session) (v : Value) : Except Error Value := do
  let st ← Step.ofValue v
  (s.run (argument (st.args.getD "default" (.str "")))).1

/-- What an `Ask` that stores a name answers. -/
def answerIn (s : Session) (key : String) (default : Value) : Value :=
  if isAnswer (s.env.getD key .null) then s.env.getD key .null else default

theorem askStep_cases (s : Session) {st : Step} {v : Value} (hv : Step.ofValue v = .ok st) :
    (∃ e, s.run (askStep st) = (.error e, s)) ∨
      ∃ default answer t, defaultIn s v = .ok default ∧ s.run (askStep st) = (.ok none, t) ∧
        t.receipt = s.receipt.addAsk (.obj [("prompt", (st.arg "text").orElse (.str "")),
          ("store", st.arg "store"), ("value", answer)]) ∧
        ∀ key, st.arg "store" = .str key → key ≠ "" →
          answer = answerIn s key default ∧ t.env.get? key ≠ none := by
  have hdefault : defaultIn s v = (s.run (argument (st.args.getD "default" (.str "")))).1 := by
    rw [defaultIn, hv]
    rfl
  rw [askStep, run_bind, (steady_argument _).run_eq s, ← hdefault]
  cases defaultIn s v with
  | error e => exact .inl ⟨e, rfl⟩
  | ok default =>
    refine .inr ⟨default, ?_⟩
    dsimp only
    split
    · rename_i name hname
      split
      · rename_i hempty
        -- an empty name stores nothing
        refine ⟨.null, _, rfl, rfl, rfl, fun key hkey hne => absurd ?_ hne⟩
        obtain rfl := str.inj (hname.symm.trans hkey)
        exact String.isEmpty_iff.mp hempty
      · rw [run_bind, run_get]
        dsimp only
        split
        · rename_i hanswer
          -- the answer is bound already, for what is not bound is none
          refine ⟨_, _, rfl, rfl, rfl, fun key hkey _ => ?_⟩
          obtain rfl := str.inj (hname.symm.trans hkey)
          refine ⟨(if_pos hanswer).symm, fun hnone => ?_⟩
          rw [getD, hnone] at hanswer
          exact Bool.false_ne_true hanswer
        · rename_i hanswer
          refine ⟨_, _, rfl, rfl, rfl, fun key hkey _ => ?_⟩
          obtain rfl := str.inj (hname.symm.trans hkey)
          refine ⟨(if_neg hanswer).symm, fun hnone => ?_⟩
          exact Option.some_ne_none _ ((get?_put_self _ _ _).symm.trans hnone)
    · rename_i hstore
      exact ⟨.null, _, rfl, rfl, rfl, fun key hkey => absurd hkey (hstore key)⟩

def answering (key : String) (ok : Value → Prop) : Law where
  holds _ s := ∀ a ∈ askedFor key s.receipt.ask, ok (a.field "value")
  faults _ h := h
  binds _ _ h := h
  records _ _ h := h
  calls _ h := h
  shows _ _ h := ⟨fun _ _ => h, fun _ _ => h⟩
  fetches _ h := h
  refuses _ _ _ h := h

section

variable {p : Session → Value → Prop} [∀ s v, Decidable (p s v)]

/-- Where a module comes to no question for a name but such as answer with values of some kind,
    the entries of the name have such values. -/
theorem forall_askedFor_of_avoids (hkey : key ≠ "") (ok : Value → Prop)
    (hok : ∀ s v default, ¬p s v → AsksFor key v → defaultIn s v = .ok default →
      ok (answerIn s key default)) {depth : Nat} {body : Value} {s : Session}
    (h : Avoids p depth body inputs s) :
    ∀ a ∈ askedFor key (s.run (moduleWith (takeStep depth) body inputs)).2.receipt.ask,
      ok (a.field "value") := by
  have hask : ∀ s v st, (answering key ok).holds none s → ¬p s v → Step.ofValue v = .ok st →
      st.verb = "Ask" → (answering key ok).RelatesAt s (askStep st) (askStep st) := by
    intro s v st hs hp hv hverb
    refine ⟨rfl, ?_⟩
    obtain ⟨e, hrun⟩ | ⟨default, answer, t, hdefault, hrun, hreceipt, hanswer⟩ := askStep_cases s hv
    · rw [hrun]
      exact hs
    · rw [hrun]
      change ∀ a ∈ askedFor key t.receipt.ask, _
      rw [hreceipt]
      intro a ha
      obtain ⟨ha, hstore⟩ := List.mem_filter.mp ha
      rcases List.mem_append.mp ha with ha | ha
      · exact hs a (List.mem_filter.mpr ⟨ha, hstore⟩)
      · obtain rfl := List.mem_singleton.mp ha
        obtain hstore : st.arg "store" = .str key := eq_of_isText hstore
        refine Eq.mpr (congrArg ok (hanswer key hstore hkey).1) ?_
        exact hok s v default hp ⟨st, hv, hverb, hstore⟩ hdefault
  -- the questions left out do not matter to the run, so they may as well fail
  have hgoverns (v : Value) : (answering key ok).Governs
      (divert p (fun _ => throw .tooDeep) depth v) :=
    relates_divert (r := fun _ => True) (fun _ => trivial) (fun _ _ _ _ _ _ => trivial)
      (fun _ _ _ _ => Iff.rfl)
      (fun s _ _ hs _ => governs_throw rfl s hs) hask (fun _ _ _ _ _ hs _ => hs)
      (fun _ _ hs => hs) depth trivial
  have hrun : (answering key ok).RelatesAt s
      (moduleWith (divert p (fun _ => throw .tooDeep) depth) body inputs)
      (moduleWith (divert p (fun _ => throw .tooDeep) depth) body inputs) :=
    relatesAt_moduleWith (fun _ ha => absurd ha List.not_mem_nil) (fun _ _ _ _ v _ => hgoverns v)
      fun _ ht => ht
  rw [← h]
  exact hrun.2

end

/-! ### Calls -/

/-- A step that calls a module, which ends well on the inputs that the call gives it. -/
structure FinishedCall (depth : Nat) (x : Session) (v : Value) where
  step : Step
  ofValue : Step.ofValue v = .ok step
  isCall : IsModuleCall step
  name : String
  target : step.arg "module" = .str name
  callee : Value
  found : x.module? name = some callee
  known : callee.isNull = false
  given : Fields Value
  takes : (step.arg "inputs").orElse (.obj []) = .obj given
  inputs : Fields Value
  evaluates : (x.run (callInputs given)).1 = .ok inputs
  body : Value
  unwraps : unwrap callee = .ok body
  result : Value
  finishes : ((calleeSession x).run (moduleWith (takeStep depth) body inputs)).1 = .ok result

namespace FinishedCall

variable {depth : Nat} {x : Session} {v : Value} (c : FinishedCall depth x v)

def inner : Session := ((calleeSession x).run (moduleWith (takeStep depth) c.body c.inputs)).2

def entry : Fields Value :=
  [("event", .str "call"), ("module", .str c.name), ("inputs", .obj c.inputs),
    ("inputsResolved", .obj (resolvedInputs c.inputs c.inner.receipt.ask)), ("verb", .str "Call")]

theorem run_called : (calleeSession x).run (called depth c.callee c.inputs) =
    (.ok c.result, c.inner) := by
  rw [called, c.unwraps, ← c.finishes]
  rfl

theorem run_callStep (lineage : Lineage) : ∃ t,
    x.run (callStep (called depth) c.step lineage) = (.ok none, t) ∧
      t.receipt.steps = x.receipt.steps ++ [.obj (lineage.mark c.entry)] := by
  have hinputs : inputsIn x c.step = .ok c.inputs := by rw [inputsIn, c.takes]; exact c.evaluates
  have hcallee : calleeOf x (c.step.arg "module") = c.callee := by
    rw [c.target]
    exact congrArg (Option.getD · null) c.found
  have hcases := callStep_cases (called depth) x c.step lineage
  generalize x.run (callStep (called depth) c.step lineage) = r at hcases
  cases hcases with
  | unread h => cases hinputs.symm.trans h
  | unknown h hnull =>
    rw [hcallee, c.known] at hnull
    cases hnull
  | raises h _ hrun =>
    obtain rfl := Except.ok.inj (hinputs.symm.trans h)
    rw [hcallee, c.run_called] at hrun
    cases hrun
  | returns h _ hrun =>
    obtain rfl := Except.ok.inj (hinputs.symm.trans h)
    rw [hcallee, c.run_called] at hrun
    obtain ⟨_, rfl⟩ := Prod.mk.inj hrun
    refine ⟨_, rfl, ?_⟩
    rw [entry, ← c.target]
    rfl

theorem run_takeStep : ∃ t, x.run (takeStep (depth + 1) v) = (.ok none, t) ∧
    t.receipt.steps = x.receipt.steps ++ [.obj ((Lineage.ofStep v).mark c.entry)] := by
  obtain ⟨t, hrun, hsteps⟩ := c.run_callStep (Lineage.ofStep v)
  refine ⟨t, Eq.trans ?_ hrun, hsteps⟩
  rw [takeStep_succ]
  exact c.isCall.run_step c.ofValue _ _ x

end FinishedCall

/-- A module asks for a name whose variable is not what the call gave. -/
def Rebound (inputs : Fields Value) (key : String) (s : Session) (v : Value) : Prop :=
  AsksFor key v ∧ s.env.get? key ≠ inputs.get? key

/-- A module asks for a name, and unless that was bound anew the default comes to a value. -/
def FallsBack (inputs : Fields Value) (key : String) (w : Value) (s : Session) (v : Value) : Prop :=
  AsksFor key v ∧ (s.env.get? key = inputs.get? key → defaultIn s v = .ok w)

/-- An input is told with the value that was recorded for it, as the caller's if that gave an
    answer, and otherwise as the default. -/
def Told (detail recorded given : Value) : Prop := detail.field "value" = recorded ∧
    (detail.field "source" = .str "caller" ↔ isAnswer given = true) ∧
    (detail.field "source" = .str "default" ↔ isAnswer given = false)

theorem told_inputOf_iff {a : Value}
    (h : isAnswer (inputs.getD key .null) → a.field "value" = inputs.getD key .null) :
    Told (inputOf inputs key a) (a.field "value") (inputs.getD key .null) ↔
      isAnswer (inputs.getD key .null) ∨
        inputs.get? key = none ∧ (a.field "value").isNull = false := by
  unfold inputOf
  rw [getD] at h ⊢
  -- the call asks whether the input was given, the module whether it is an answer
  cases hget : inputs.get? key with
  | some v =>
    rw [hget, Option.getD_some] at h
    rw [Option.getD_some]
    constructor
    · rintro ⟨_, hcaller, _⟩
      exact .inl (hcaller.mp rfl)
    · rintro (hanswer | ⟨hnone, _⟩)
      · refine ⟨(h hanswer).symm, ⟨fun _ => hanswer, fun _ => rfl⟩, ?_, ?_⟩
        · exact fun hsource => absurd (str.inj hsource) (by decide)
        · exact fun hno => absurd (hanswer.symm.trans hno) (by decide)
      · cases hnone
  | none =>
    constructor
    · rintro ⟨_, _, hdefault⟩
      refine .inr ⟨rfl, Bool.eq_false_iff.mpr fun hnull => ?_⟩
      have hsource := hdefault.mpr rfl
      rw [if_pos hnull] at hsource
      exact absurd (str.inj hsource) (by decide)
    · rintro (hanswer | ⟨_, hvalue⟩)
      · cases hanswer
      · rw [hvalue, if_neg Bool.false_ne_true]
        refine ⟨rfl, ⟨fun hsource => ?_, fun hanswer => ?_⟩, fun _ => rfl, fun _ => rfl⟩
        · exact absurd (str.inj hsource) (by decide)
        · cases hanswer

open Classical in
/-- A module that is called asks for a name once. The call tells the input as the caller's if
    that gave it, and otherwise as the default with the recorded value. Where the variable was not
    bound anew before, the module recorded what the caller gave if that is an answer, and
    otherwise what the default came to; so the input is told as it was exactly if the caller gave
    an answer, or did not give the input and the default is not null. -/
theorem told_iff_answered_or_omitted {depth : Nat} {x : Session} {v : Value}
    (c : FinishedCall depth x v) {key : String} {a : Value} (hkey : key ≠ "")
    (hasked : askedFor key c.inner.receipt.ask = [a]) :
    ∃ t entry, x.run (takeStep (depth + 1) v) = (.ok none, t) ∧
      t.receipt.steps = x.receipt.steps ++ [entry] ∧ entry.field "event" = .str "call" ∧
      (entry.field "inputsResolved").field key = inputOf c.inputs key a ∧
      (Avoids (Rebound c.inputs key) depth c.body c.inputs (calleeSession x) →
        (isAnswer (c.inputs.getD key .null) = true → a.field "value" = c.inputs.getD key .null) ∧
        (isAnswer (c.inputs.getD key .null) = false →
          ¬Avoids (FallsBack c.inputs key (a.field "value")) depth c.body c.inputs
            (calleeSession x)) ∧
        (Told (inputOf c.inputs key a) (a.field "value") (c.inputs.getD key .null) ↔
          isAnswer (c.inputs.getD key .null) = true ∨
            c.inputs.get? key = none ∧ (a.field "value").isNull = false)) := by
  obtain ⟨t, hrun, hsteps⟩ := c.run_takeStep
  have hdetail : ((obj ((Lineage.ofStep v).mark c.entry)).field "inputsResolved").field key =
      inputOf c.inputs key a := by
    rw [Lineage.field_mark _ _ (by decide)]
    exact congrArg (Option.getD · null) (get?_resolvedInputs hasked)
  refine ⟨t, _, hrun, hsteps, Lineage.field_mark _ _ (by decide), hdetail, fun hbound => ?_⟩
  have hmem : a ∈ askedFor key c.inner.receipt.ask := by
    rw [hasked]
    exact List.mem_singleton_self a
  have hgiven : isAnswer (c.inputs.getD key .null) = true →
      a.field "value" = c.inputs.getD key .null := by
    intro hanswer
    refine forall_askedFor_of_avoids hkey (· = c.inputs.getD key .null) ?_ hbound a hmem
    intro s w default hp hw _
    have hsame : s.env.get? key = c.inputs.get? key := not_not.mp fun h => hp ⟨hw, h⟩
    rw [answerIn, Fields.getD, hsame]
    exact if_pos hanswer
  refine ⟨hgiven, fun hanswer havoid => ?_, told_inputOf_iff hgiven⟩
  -- where no default comes to the recorded value, nothing records it
  refine forall_askedFor_of_avoids hkey (· ≠ a.field "value") ?_ havoid a hmem rfl
  intro s w default hp hw hdefault
  obtain ⟨hsame, hne⟩ := Classical.not_imp.mp fun h => hp ⟨hw, h⟩
  have hdefaulted : answerIn s key default = default := by
    rw [answerIn, Fields.getD, hsame]
    exact if_neg (Bool.eq_false_iff.mp hanswer)
  rw [hdefaulted]
  rintro rfl
  exact hne hdefault

def nameAsk : Value := .obj [("verb", .str "Ask"),
    ("args", .obj [("store", .str "name"), ("default", .str "World")])]

def greeter : Value := .obj [("flow", .list [nameAsk])]

def greeterSession : Session := Session.start .null false [("Greeter", greeter)] []

def emptyGreeting : FinishedCall 1 greeterSession
    (.obj [("verb", .str "Call"), ("args", .obj [("module", .str "Greeter"),
      ("inputs", .obj [("name", .str "")])])]) where
  step := ⟨"Call", [("module", .str "Greeter"), ("inputs", .obj [("name", .str "")])], "Call"⟩
  ofValue := by rfl
  isCall := ⟨rfl, rfl, by decide⟩
  name := "Greeter"
  target := rfl
  callee := greeter
  found := rfl
  known := rfl
  given := [("name", .str "")]
  takes := rfl
  inputs := [("name", .str "")]
  evaluates := rfl
  body := greeter
  unwraps := rfl
  result := .null
  finishes := by rfl

open Classical in
theorem avoids_rebound_greeter : Avoids (Rebound emptyGreeting.inputs "name") 1 greeter
    emptyGreeting.inputs (calleeSession greeterSession) := by
  intro other
  let begun : Session :=
    { calleeSession greeterSession with env := emptyGreeting.inputs, ready := true }
  have hrun (take : Value → Run Outcome) :
      (calleeSession greeterSession).run (moduleWith take greeter emptyGreeting.inputs) =
        begun.run (do
          let out ← steps take [nameAsk]
          change fun s => { s with receipt := { s.receipt with env := s.env } }
          pure (out.getD .null)) := rfl
  have hask : begun.run (divert (Rebound emptyGreeting.inputs "name") other 1 nameAsk) =
      begun.run (takeStep 1 nameAsk) := by
    rw [divert, run_bind, run_get]
    dsimp only
    rw [if_neg fun h => h.2 rfl]
    rfl
  have hsteps : begun.run (steps (divert (Rebound emptyGreeting.inputs "name") other 1) [nameAsk]) =
      begun.run (steps (takeStep 1) [nameAsk]) := by
    rw [steps, run_bind, hask, ← run_bind]
    rfl
  rw [hrun, hrun, run_bind, run_bind, hsteps]

/-- The module greets the world, and the call tells the empty text as what the caller gave. -/
theorem told_iff_answered_or_omitted_empty :
    ∃ a, askedFor "name" emptyGreeting.inner.receipt.ask = [a] ∧ a.field "value" = .str "World" ∧
      inputOf emptyGreeting.inputs "name" a = inputDetail "caller" (.str "") ∧
      ¬Told (inputOf emptyGreeting.inputs "name" a) (a.field "value") (.str "") := by
  have hasked : askedFor "name" emptyGreeting.inner.receipt.ask = [.obj [("prompt", .str ""),
      ("store", .str "name"), ("value", .str "World")]] := by rfl
  obtain ⟨t, entry, hrun, hsteps, hevent, hdetail, htold⟩ :=
    told_iff_answered_or_omitted emptyGreeting (by decide) hasked
  refine ⟨_, hasked, rfl, rfl, fun h => ?_⟩
  obtain ⟨_, _, hiff⟩ := htold avoids_rebound_greeter
  obtain hanswer | ⟨hnone, _⟩ := hiff.mp h
  · exact absurd hanswer (by decide)
  · cases hnone

end Run

end Loom
