import Loom.Program
import Loom.Proofs.Progression
import Mathlib.Data.Nat.Factorial.Basic

/-!
# The Factorial Module

An outline that computes factorials is followed all the way from its file: its text is read, its
lines are cut into tokens, the tokens become a tree and the tree a module, the module is expanded
under the core pack and run.

Up to the module everything is a computation on one text, which is left to evaluation. Expansion
is not, since settings and directories vary: all it needs is that the core pack maps none of the
seven verbs. In the run the loop multiplies along the progression from 1, so that the result is
the product of the values that were visited.
-/

namespace Loom

open Fields Run Loom.Expr Program Overlay

variable {text : String} {names : List String} {v w : Value}

theorem get?_of_not_mem {α : Type} {name : String} {fs : Fields α} (h : name ∉ fs.keys) :
    fs.get? name = none := by
  induction fs with
  | nil => rfl
  | cons f fs ih =>
    rw [keys, List.map_cons, List.mem_cons, not_or] at h
    rw [get?, if_neg (by simpa using Ne.symm h.1), ih h.2]

open Text Session

/-! ### The core pack -/

namespace Overlay

variable {files : Files} {table : Table} {options : Options}

/-- A table that maps none of the seven verbs. -/
def LeavesVerbs (table : Table) : Prop := ∀ verb ∈ canonicalVerbs, table.get? verb = none

/-- Whether what was read is a pack that maps none of the seven verbs. -/
def readsPack : Except Json.Stop (Value × Json.Cursor) → Bool
  | .ok (v, next) => next.skipGap.rest.isEmpty &&
    (readPack v).toOption.any fun table => canonicalVerbs.all fun verb => !table.keys.contains verb
  | .error _ => false

/-- The test for the characters of a file. -/
def isPack (cs : List Char) : Bool := cs.head? != some '\uFEFF' &&
    readsPack (Json.readValue 0 (2 * cs.length + 2) (Json.Cursor.skipGap ⟨0, cs⟩))

theorem exists_of_isPack {cs : List Char} (h : isPack cs) :
    ∃ pack table, Json.read (String.ofList cs) = .ok pack ∧ readPack pack = .ok table ∧
      ∀ verb ∈ canonicalVerbs, verb ∉ table.keys := by
  rw [isPack, Bool.and_eq_true, bne_iff_ne] at h
  obtain ⟨hhead, h⟩ := h
  rw [Json.read, String.toList_ofList]
  rw [if_neg (by rwa [beq_iff_eq])]
  generalize Json.readValue 0 _ _ = r at h ⊢
  rcases r with _ | ⟨v, next⟩
  · cases h
  · rw [readsPack, Bool.and_eq_true] at h
    rcases hpack : readPack v with _ | table
    · rw [hpack] at h
      exact nomatch h.2
    · rw [hpack] at h
      have hall : canonicalVerbs.all (fun verb => !table.keys.contains verb) := h.2
      refine ⟨v, table, if_pos h.1, hpack, fun verb hverb hmem => ?_⟩
      have hverbs := List.all_eq_true.mp hall verb hverb
      rw [List.contains_iff_mem.mpr hmem] at hverbs
      cases hverbs

theorem isFile_of_text? {path : String} (h : files.text? path = some text) :
    files.isFile path := by
  obtain ⟨p, hreal, hget⟩ := Option.bind_eq_some_iff.mp h
  rw [Files.isFile, hreal]
  simp [has, hget]

theorem exists_loadOver {core : Table} (hcore : ∀ verb ∈ canonicalVerbs, verb ∉ core.keys)
    (hfile : files.isFile (packPath "core")) {pack : Value}
    (hjson : files.readJson (packPath "core") = .ok pack) (hpack : readPack pack = .ok core)
    (hnames : ∀ name ∈ names, name = "core") (htable : LeavesVerbs table) :
    ∃ t, loadOver files table names = .ok t ∧ LeavesVerbs t := by
  induction names generalizing table with
  | nil => exact ⟨table, rfl, htable⟩
  | cons name names ih =>
    rw [List.forall_mem_cons] at hnames
    obtain ⟨rfl, hnames⟩ := hnames
    have hmerge : LeavesVerbs (table.merge core) := fun verb hverb => by
      rw [get?_merge_of_not_mem (hcore verb hverb), htable verb hverb]
    rw [loadOver, hfile]
    change ∃ t, (files.readJson (packPath "core") >>= _) = _ ∧ _
    rw [hjson]
    change ∃ t, (readPack pack >>= _) = _ ∧ _
    rw [hpack]
    exact ih hnames hmerge

theorem exists_load (htext : isPack (unifyLineEnds text.toList))
    (hcore : files.text? (packPath "core") = some text) (hnames : ∀ name ∈ names, name = "core") :
    ∃ table, load files names = .ok table ∧ LeavesVerbs table := by
  obtain ⟨pack, core, hread, hpack, hleaves⟩ := exists_of_isPack htext
  have hjson : files.readJson (packPath "core") = .ok pack := by
    rw [Files.readJson, Files.read, hcore]
    dsimp only [bind, Except.bind]
    rw [readLines, hread]
    rfl
  have hfile := isFile_of_text? hcore
  rw [load, hfile]
  change ∃ t, (files.readJson (packPath "core") >>= _) = _ ∧ _
  rw [hjson]
  change ∃ t, (readPack pack >>= _) = _ ∧ _
  rw [hpack]
  exact exists_loadOver hleaves hfile hjson hpack hnames fun verb hverb =>
    get?_of_not_mem (hleaves verb hverb)

theorem isPack_corePack : isPack (unifyLineEnds corePack.toList) := by
  -- line by line: a character of a text is found by counting from its start
  delta corePack
  repeat rewrite [String.toList_append]
  decide +kernel

end Overlay

/-! ### The module -/

namespace Factorial

/-- The outline, as it stands in its file. -/
def outline : String := "I. Module: Factorial\r\n" ++
  "    A. Purpose: Compute n!\r\n" ++
  "    B. Inputs\r\n" ++
  "        1. n: number\r\n" ++
  "    C. Outputs\r\n" ++
  "        1. result: number\r\n" ++
  "    D. Flow\r\n" ++
  "        1. Check n >= 0\r\n" ++
  "        2. Make result = 1\r\n" ++
  "        3. Repeat i in 1..n\r\n" ++
  "            a. Make result = result * i\r\n" ++
  "        4. Return result\r\n" ++
  "    E. Tests\r\n" ++
  "        1. input: n = 5\r\n" ++
  "        2. expectedOutput: 120\r\n" ++
  "    F. Version: 0.1\r\n"

def showArgs : Fields Value := [("expr", (Expr.binary .ge (.name "n") (.number (.int 0))).toValue)]

def startArgs : Fields Value := [("name", .str "result"), ("expr", (Expr.number (.int 1)).toValue)]

def timesArgs : Fields Value :=
  [("name", .str "result"), ("expr", (Expr.binary .mul (.name "result") (.name "i")).toValue)]

def loopArgs : Fields Value :=
  [("iter", .str "i"), ("range", (Expr.range (.number (.int 1)) (.name "n")).toValue)]

def returnArgs : Fields Value := [("expr", (Expr.name "result").toValue)]

def built (verb : String) (args : Fields Value) : Value :=
  .obj [("verb", .str verb), ("args", .obj args)]

def loop : Fields Value :=
  [("verb", .str "Repeat"), ("args", .obj loopArgs), ("block", .list [built "Make" timesArgs])]

def module : Value :=
  let declared (x : String) : Value := .obj [("name", .str x), ("resultType", .str "Number")]
  .obj [("type", .str "Module"), ("name", .str "Factorial"), ("purpose", .str "Compute n!"),
    ("version", .str "0.1"), ("astVersion", .str "2.1.0"), ("inputs", .list [declared "n"]),
    ("outputs", .list [declared "result"]),
    ("flow", .list [built "Show" showArgs, built "Make" startArgs, .obj loop,
      built "Return" returnArgs]),
    ("tests", .list [.obj [("name", .str "test"), ("inputs", .obj [("n", .int 5)]),
      ("expected", .int 120)]])]

theorem ofText_readLines (text : String) : Module.ofText (readLines text) =
    Outline.parseTree true ((Outline.tokensOfLines none
      ((linesFrom [] false (unifyLineEnds text.toList)).map String.ofList)).map
        Outline.Token.toValue) >>= Module.ofTree := by
  rw [Module.ofText, Outline.treeOf, Outline.tokenize, lines, readLines, String.toList_ofList]

theorem ofText_outline : Module.ofText (readLines outline) = .ok module := by
  refine Value.eq_ok_of_isCopy ?_
  rewrite [ofText_readLines]
  delta outline
  repeat rewrite [String.toList_append]
  decide +kernel

/-! ### Expansion -/

section

open Overlay

variable {table : Table} (options : Options) {verb : String}

/-- A step that goes on whole. -/
def passed (verb : String) (args : Fields Value) : Value :=
  .obj (merge [("verb", .str verb), ("args", .obj args)] (passedOn verb).fields)

theorem expandStep_passed (htable : LeavesVerbs table) (hverb : verb ∈ canonicalVerbs)
    (args rest : Fields Value) :
    expandStep table options (.obj (("verb", .str verb) :: ("args", .obj args) :: rest)) =
      .ok ⟨[.obj (merge (("verb", .str verb) :: ("args", .obj args) :: rest)
        (passedOn verb).fields)], [⟨passedOn verb, .str "canonical-pass-through"⟩], []⟩ := by
  rw [expandStep_of_canonical rfl hverb (htable verb hverb), argsOf_of_get? rfl]
  rfl

theorem expandStep_built (htable : LeavesVerbs table) (hverb : verb ∈ canonicalVerbs)
    (args : Fields Value) : expandStep table options (built verb args) =
      .ok ⟨[passed verb args], [⟨passedOn verb, .str "canonical-pass-through"⟩], []⟩ :=
  expandStep_passed options htable hverb args []

def body : Value := .obj [("steps", .list [passed "Make" timesArgs])]

def steps : List Value :=
  [passed "Show" showArgs, passed "Make" startArgs, passed "Repeat" (loopArgs ++ [("block", body)]),
    passed "Return" returnArgs]

theorem expandList_body (htable : LeavesVerbs table) (depth : Nat) :
    expandList table options (depth + 1) [built "Make" timesArgs] =
      .ok ([passed "Make" timesArgs], []) := by
  rw [expandList, expandSteps_singleton, expandStep_built options htable (by decide)]
  rfl

theorem expandInside_loop (htable : LeavesVerbs table) (depth : Nat) :
    expandInside (expandList table options (depth + 1))
      (.obj (merge loop (passedOn "Repeat").fields)) =
        .ok (passed "Repeat" (loopArgs ++ [("block", body)]), []) := by
  have hbody := expandList_body options htable depth
  generalize expandList table options (depth + 1) = inner at hbody ⊢
  change ((inner [built "Make" timesArgs] >>= _) >>= _) = _
  rw [hbody]
  rfl

theorem expandModule_module (htable : LeavesVerbs table) :
    expandModule table options module = .ok (module.setField "flow" (.list steps), []) := by
  have hbuilt {verb : String} (hverb : verb ∈ canonicalVerbs) (args : Fields Value) :=
    expandStep_built options htable hverb args
  have hloop : expandStep table options (.obj loop) =
      .ok ⟨[.obj (merge loop (passedOn "Repeat").fields)],
        [⟨passedOn "Repeat", .str "canonical-pass-through"⟩], []⟩ :=
    expandStep_passed options htable (by decide) loopArgs _
  have hinside := expandInside_loop options htable 298
  change (expandList table options (298 + 1 + 1) [_, _, _, _] >>= _) = _
  rw [expandList]
  generalize expandList table options (298 + 1) = inner at hinside ⊢
  simp only [expandSteps, hloop, hbuilt (show "Show" ∈ canonicalVerbs by decide),
    hbuilt (show "Make" ∈ canonicalVerbs by decide),
    hbuilt (show "Return" ∈ canonicalVerbs by decide)]
  change ((expandEach inner [_, _, .obj (merge loop _), _] >>= _) >>= _) = _
  simp only [expandEach]
  rw [hinside]
  rfl

end

/-! ### The run -/

variable {s t : Session} {env : Env} {f i : Int} {n : Nat}

/-- What holds of a session between two rounds. -/
structure Holds (f : Int) (s : Session) : Prop where
  ready : s.ready
  result : s.env.get? "result" = some (.int f)

theorem run_argument (hs : s.ready) (hv : v.isObj)
    (heval : Expr.eval s.env v = .ok w) : s.run (argument v) = (.ok w, s) := by
  rw [argument, if_pos hv, evaluate, run_bind, run_get]
  dsimp only
  rw [if_pos hs, heval]
  rfl

theorem run_make (depth : Nat) (x : String) (hx : x.isEmpty = false) (e : Expr)
    (hw : s.run (argument e.toValue) = (.ok w, s)) : ∃ receipt,
      s.run (takeStep (depth + 1) (passed "Make" [("name", .str x), ("expr", e.toValue)])) =
        (.ok none, { s with env := s.env.put x w, receipt }) := by
  have hstep : takeStep (depth + 1) (passed "Make" [("name", .str x), ("expr", e.toValue)]) =
      if x.isEmpty then throw (.run .missingName) else (do
        let v ← argument e.toValue
        bindName x v
        record (.ofStep (passed "Make" [("name", .str x), ("expr", e.toValue)]))
          [("event", .str "make"), ("name", .str x), ("value", v), ("verb", .str "Make")]
        pure none) := by
    cases e <;> rfl
  rw [hstep, hx, if_neg Bool.false_ne_true, run_bind, hw]
  exact ⟨_, rfl⟩

theorem run_steps {take : Value → Run Run.Outcome} (h : s.run (take v) = (.ok none, t))
    (vs : List Value) : s.run (Run.steps take (v :: vs)) = t.run (Run.steps take vs) := by
  rw [steps_cons, run_andThen, h]

theorem eval_name (env : Env) (x : String) :
    Expr.eval env (Expr.name x).toValue = .ok ((env.get? x).getD .null) := rfl

theorem eval_times (hresult : env.get? "result" = some (.int f)) (hi : env.get? "i" = some (.int i)) :
    Expr.eval env (Expr.binary .mul (.name "result") (.name "i")).toValue = .ok (.int (f * i)) := by
  have heval : eval env (binary .mul (.name "result") (.name "i")).toValue =
      Expr.Node.applyBinary (.str "*") (env.getD "result" .null) (env.getD "i" .null) := rfl
  rw [heval, getD, getD, hresult, hi]
  rfl

theorem run_round (hs : Holds f s) (depth : Nat) (i : Int) : ∃ t,
    s.run (roundOf (takeStep (depth + 1)) "i" body i) = (.ok none, t) ∧ Holds (f * i) t := by
  let u : Session := { s with env := s.env.put "i" (.int i) }
  have hresult : u.env.get? "result" = some (.int f) :=
    (get?_put_of_ne s.env (by decide) _).trans hs.result
  have hw := run_argument (s := u) hs.ready rfl
    (eval_times hresult (get?_put_self s.env "i" (.int i)))
  obtain ⟨receipt, hrun⟩ := run_make depth "result" rfl _ hw
  refine ⟨{ u with env := u.env.put "result" (.int (f * i)), receipt }, ?_, hs.ready,
    get?_put_self _ _ _⟩
  change u.run (Run.steps (takeStep (depth + 1)) [passed "Make" timesArgs]) = _
  exact run_steps hrun []

theorem product_of_walks {vs : List Int} {r : Except Error Run.Outcome} {depth : Nat}
    (h : Run.Walks (roundOf (takeStep (depth + 1)) "i" body) s vs r t) (hs : Holds f s) :
    r = .ok none ∧ Holds (vs.foldl (· * ·) f) t := by
  induction h generalizing f with
  | done s => exact ⟨rfl, hs⟩
  | goesOn h _ ih =>
    obtain ⟨u, hrun, hu⟩ := run_round hs depth _
    cases h.symm.trans hrun
    exact ih hu
  | stops h hr =>
    obtain ⟨u, hrun, _⟩ := run_round hs depth _
    cases h.symm.trans hrun
    exact absurd rfl hr

theorem foldl_range (n : Nat) : ((List.range n).map fun j : Nat => (1 : Int) + j * 1).foldl
    (· * ·) 1 = (n.factorial : Int) := by
  induction n with
  | zero => rfl
  | succ n ih =>
    rw [List.range_succ, List.map_append, List.foldl_append, ih, Nat.factorial_succ,
      Int.natCast_mul, Int.mul_comm]
    refine congrArg (fun i : Int => n.factorial * i)
      (show 1 + (n : Int) * 1 = ((n + 1 : Nat) : Int) from ?_)
    omega

theorem run_loop (hs : Holds 1 s) (hn : s.env.get? "n" = some (.int n)) (depth : Nat) :
    ∃ t, s.run (takeStep (depth + 2) (passed "Repeat" (loopArgs ++ [("block", body)]))) =
      (.ok none, t) ∧ Holds n.factorial t := by
  have hv : Step.ofValue (passed "Repeat" (loopArgs ++ [("block", body)])) = .ok ⟨"Repeat",
    [("range", (range (.number (.int 1)) (.name "n")).toValue), ("block", body),
      ("iterator", .str "i")], "Repeat"⟩ := rfl
  have hlast : eval s.env (name "n").toValue = .ok (.int n) := by
    rw [eval_name, hn]
    rfl
  have hrange : Run.IsRange s (range (.number (.int 1)) (.name "n")).toValue 1 n 1 :=
    ⟨rfl, rfl, run_argument hs.ready rfl rfl, run_argument hs.ready rfl hlast, rfl⟩
  obtain ⟨r, t, visited, hrun, hwalks, rest, hrest, hall⟩ :=
    exists_walks (takeStep (depth + 1)) (show "i" ≠ "" by decide) body 1
      (((n : Int) - 1).fdiv 1 + 1).toNat 1 s
  obtain ⟨rfl, ht⟩ := product_of_walks hwalks hs
  cases hall rfl
  rw [List.append_nil] at hrest
  refine ⟨t, (run_range hv rfl hrange (by decide) (depth + 1)).trans hrun, ?_⟩
  have hcount : (((n : Int) - 1).fdiv 1 + 1).toNat = n := by
    rw [Int.fdiv_one]
    omega
  rwa [← hrest, hcount, foldl_range] at ht

theorem run_show (hs : s.ready) (hn : s.env.get? "n" = some (.int n)) (depth : Nat) :
    ∃ t, s.run (takeStep (depth + 1) (passed "Show" showArgs)) = (.ok none, t) ∧
      t.ready ∧ t.env = s.env := by
  have hstep : takeStep (depth + 1) (passed "Show" showArgs) = (do
    let v ← argument (binary .ge (.name "n") (.number (.int 0))).toValue
    record (.ofStep (passed "Show" showArgs))
      [("event", .str "show"), ("value", v), ("verb", .str "Show")]
    print (← Run.liftExcept v.shown)
    log v
    pure none) := rfl
  obtain ⟨b, heval⟩ : ∃ b, eval s.env (binary .ge (.name "n")
      (.number (.int 0))).toValue = .ok (.bool b) := by
    have heval : eval s.env (binary .ge (.name "n") (.number (.int 0))).toValue =
        Expr.Node.applyBinary (.str ">=") (s.env.getD "n" .null) (.int 0) := rfl
    rw [heval, getD, hn]
    exact ⟨_, rfl⟩
  rw [hstep, run_bind, run_argument hs rfl heval]
  exact ⟨_, rfl, hs, rfl⟩

theorem run_return (hs : Holds f s) (depth : Nat) :
    ∃ t, s.run (takeStep (depth + 1) (passed "Return" returnArgs)) = (.ok (some (.int f)), t) := by
  have hstep : takeStep (depth + 1) (passed "Return" returnArgs) = (do
      let v ← argument (name "result").toValue
      record (.ofStep (passed "Return" returnArgs))
        [("event", .str "return"), ("value", v), ("verb", .str "Return")]
      pure (some v)) := rfl
  have heval : eval s.env (name "result").toValue = .ok (.int f) := by
    rw [eval_name, hs.result]
    rfl
  rw [hstep, run_bind, run_argument hs.ready rfl heval]
  exact ⟨_, rfl⟩

theorem run_steps_factorial (hs : s.ready) (hn : s.env.get? "n" = some (.int n))
    (depth : Nat) : ∃ t, s.run (Run.steps (takeStep (depth + 2)) steps) =
      (.ok (some (.int n.factorial)), t) := by
  obtain ⟨s₁, hshow, hready, henv⟩ := run_show hs hn (depth + 1)
  rw [← henv] at hn
  obtain ⟨receipt, hmake⟩ := run_make (depth + 1) "result" rfl (.number (.int 1))
    (run_argument hready rfl rfl)
  obtain ⟨s₃, hloop, hs₃⟩ := run_loop (s := { s₁ with env := s₁.env.put "result" (.int 1), receipt })
    ⟨hready, get?_put_self _ _ _⟩ ((get?_put_of_ne _ (by decide) _).trans hn) depth
  obtain ⟨t, hreturn⟩ := run_return hs₃ (depth + 1)
  refine ⟨t, ?_⟩
  calc s.run (Run.steps (takeStep (depth + 2)) steps)
    _ = s₁.run (Run.steps _ (steps.drop 1)) := run_steps hshow _
    _ = Session.run _ (Run.steps _ (steps.drop 2)) := run_steps hmake _
    _ = s₃.run (Run.steps _ (steps.drop 3)) := run_steps hloop _
    _ = _ := by
      change s₃.run (Run.steps _ [passed "Return" returnArgs]) = _
      rw [steps_cons, run_andThen, hreturn]

theorem run_prepared {files : Files} {settings : Settings} {table : Overlay.Table}
    (htext : Module.ofText text = .ok module)
    (hload : Overlay.load files settings.overlays = .ok table)
    (htable : Overlay.LeavesVerbs table) (n : Nat) : ∃ receipt,
      (Program.run files text (.obj [("n", .int n)]) settings).result =
        .ok (.int n.factorial, receipt) := by
  have hprepare : Program.prepare files settings module =
      .ok (module.setField "flow" (.list steps), []) := by
    rw [Program.prepare, hload]
    change (if module.depth > Program.depthLimit then throw .tooDeep
      else expandModule table settings.options module) = _
    rw [if_neg (by decide), expandModule_module settings.options htable]
  have hsteps : Run.HasSteps (module.setField "flow" (.list steps)) steps :=
    ⟨rfl, rfl, rfl, rfl, rfl⟩
  have hrun := run_runModule hsteps (session settings) [("n", .int n)]
  obtain ⟨t, ht⟩ := run_steps_factorial (s := begun (session settings) [("n", .int n)])
    rfl rfl 398
  rw [run_bind, show Run.depthLimit = 398 + 2 from rfl, ht] at hrun
  have hdone : (Module.ofText text >>= prepare files settings) =
      .ok (module.setField "flow" (.list steps), []) := by
    rw [htext]
    exact hprepare
  rw [Program.run, hdone]
  dsimp only
  rw [runExpanded, hrun]
  exact ⟨_, rfl⟩

/-- Running the file of the factorial module gives factorials. -/
theorem runFile_eq_factorial {files : Files} {path : String} {settings : Settings}
    (hfile : files.text? path = some outline)
    (hcore : files.text? (Overlay.packPath "core") = some Overlay.corePack)
    (hpacks : ∀ name ∈ settings.overlays, name = "core") (n : Nat) : ∃ receipt,
      (Program.runFile files path (.obj [("n", .int n)]) settings).result =
        .ok (.int n.factorial, receipt) := by
  obtain ⟨table, hload, htable⟩ := exists_load isPack_corePack hcore hpacks
  have htext := ofText_outline
  generalize outline = text at hfile htext
  rw [runFile, Files.read, hfile]
  exact run_prepared htext hload htable n

/-- Five factorial, from a directory that holds the core pack and the outline. -/
theorem runFile_eq_factorial_five :
    let files : Files := { texts := [(Overlay.packPath "core", Overlay.corePack),
      ("factorial.loom", outline)], folders := [] }
    ∃ receipt, (Program.runFile files "factorial.loom" (.obj [("n", .int 5)]) {}).result =
      .ok (.int 120, receipt) := by
  refine runFile_eq_factorial ?_ ?_ (fun name h => absurd h List.not_mem_nil) 5
  · have hreal : Path.normal "factorial.loom" = "factorial.loom" := by decide +kernel
    change Fields.get? _ (Path.normal "factorial.loom") = _
    rw [hreal, Fields.get?, if_neg (by decide +kernel), Fields.get?, if_pos (by decide)]
  · have hreal : Path.normal (packPath "core") = packPath "core" := by
      decide +kernel
    change Fields.get? _ (Path.normal (packPath "core")) = _
    rw [hreal, Fields.get?, if_pos (beq_self_eq_true _)]

end Factorial

end Loom
