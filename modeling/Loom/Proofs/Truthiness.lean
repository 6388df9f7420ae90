import Loom.Proofs.Choice

/-!
# What Has to Be a Boolean

`and` and `or` demand booleans: an evaluation that applies one of them to another value fails
with that demand, and for no other reason. `not` and the conditions of a choice demand nothing.
They take any value and ask whether it counts as true.

What an evaluation applies an operator to depends on the values of the parts, since the right
side of `and` and `or` is only looked at if the left one leaves the result open. `Applies` says
it by the parts, and `Selects` says which branch of a choice is the first that applies.
-/

namespace Loom

variable {op v : Value} {c : String} {s : Session}

namespace Expr

open Node

/-- The name of a boolean operator with two sides. -/
def connective? (op : Value) : Option String := if op.isOneOf ["and", "&&"] then some "and"
  else if op.isOneOf ["or", "||"] then some "or"
  else none

def isNegation (op : Value) : Bool := op.isOneOf ["not", "!"]

/-- Evaluating a node applies `and`, `or` or `not` to a value. -/
inductive Applies (env : Env) : Node → String → Value → Prop
  | left {op : Value} {c : String} {l r : Node} {v : Value} (hop : connective? op = some c)
      (hl : l.eval env = .ok v) : Applies env (.binary op l r) c v
  | right {op : Value} {c : String} {l r : Node} {v : Value} (hop : connective? op = some c)
      (hl : l.eval env = .ok (.bool (c == "and"))) (hr : r.eval env = .ok v) :
      Applies env (.binary op l r) c v
  | operand {op : Value} {e : Node} {v : Value} (hop : isNegation op)
      (he : e.eval env = .ok v) : Applies env (.unary op e) "not" v
  | inLeft {op : Value} {c : String} {l r : Node} {v : Value} (h : Applies env l c v) :
      Applies env (.binary op l r) c v
  | inRight {op : Value} {c : String} {l r : Node} {a v : Value} (hl : l.eval env = .ok a)
      (hopen : ∀ d, connective? op = some d → a = .bool (d == "and")) (h : Applies env r c v) :
      Applies env (.binary op l r) c v
  | inOperand {op : Value} {c : String} {e : Node} {v : Value} (h : Applies env e c v) :
      Applies env (.unary op e) c v

/-- The failure of an operator that demands booleans. -/
abbrev demand (c : String) : Except Error Value := .error (.run (.booleanOperands c))

variable {env : Env}

theorem eval_connective (h : connective? op = some c) (l r : Node) :
    (Node.binary op l r).eval env = (do
      let a ← boolean c (← l.eval env)
      if a = (c == "and") then
        let b ← boolean c (← r.eval env)
        pure (.bool b)
      else pure (.bool a)) := by
  unfold connective? at h
  rw [Node.eval]
  split at h
  · rename_i hand
    obtain rfl := Option.some.inj h
    rw [if_pos hand]
    -- both sides of the equation ask the left operand first and differ in how they branch on it
    refine congrArg _ (funext fun v => congrArg _ (funext fun a => ?_))
    cases a <;> rfl
  · rename_i hand
    split at h
    · rename_i hor
      obtain rfl := Option.some.inj h
      rw [if_neg hand, if_pos hor]
      refine congrArg _ (funext fun v => congrArg _ (funext fun a => ?_))
      cases a <;> rfl
    · cases h

theorem eval_operator (h : connective? op = none) (l r : Node) : (Node.binary op l r).eval env = (do
      let a ← l.eval env
      let b ← r.eval env
      applyBinary op a b) := by
  unfold connective? at h
  rw [Node.eval]
  split at h
  · cases h
  · rename_i hand
    split at h
    · cases h
    · rename_i hor
      rw [if_neg hand, if_neg hor]

theorem ne_demand_of_plain {r : Except Error Value} (h : Plain r) (c : String) : r ≠ demand c := by
  rintro rfl
  exact Bool.false_ne_true h

theorem boolean_of_not_isBool (h : v.isBool = false) (c : String) :
    boolean c v = .error (.run (.booleanOperands c)) := by
  cases v with
  | bool b => cases h
  | _ => rfl

theorem boolean_cases (c : String) (v : Value) : (∃ b, v = .bool b ∧ boolean c v = .ok b) ∨
      v.isBool = false ∧ boolean c v = .error (.run (.booleanOperands c)) := by
  cases v with
  | bool b => exact .inl ⟨b, rfl, rfl⟩
  | _ => exact .inr ⟨rfl, rfl⟩

theorem ne_not_of_connective (h : connective? op = some c) : c ≠ "not" := by
  rintro rfl
  unfold connective? at h
  split at h
  · exact absurd (Option.some.inj h) (by decide)
  · split at h
    · exact absurd (Option.some.inj h) (by decide)
    · cases h

theorem cases_of_demand {d : String} {l r : Node} (hop : connective? op = some d)
    (h : (Node.binary op l r).eval env = demand c) :
    l.eval env = demand c ∨ (∃ v, l.eval env = .ok v ∧ v.isBool = false ∧ d = c) ∨
      l.eval env = .ok (.bool (d == "and")) ∧
        (r.eval env = demand c ∨ ∃ v, r.eval env = .ok v ∧ v.isBool = false ∧ d = c) := by
  rw [eval_connective hop] at h
  cases hl : l.eval env with
  | error e => rw [hl] at h; exact .inl h
  | ok a =>
    rw [hl] at h
    change (boolean d a >>= _) = _ at h
    rcases boolean_cases d a with ⟨p, rfl, hp⟩ | ⟨ha, hdemand⟩
    · rw [hp] at h
      change (if p = (d == "and") then _ else _) = _ at h
      split at h
      · rename_i hopen
        -- the right side is looked at only here
        refine .inr (.inr ⟨congrArg (Except.ok ∘ Value.bool) hopen, ?_⟩)
        cases hr : r.eval env with
        | error e => rw [hr] at h; exact .inl h
        | ok b =>
          rw [hr] at h
          change (boolean d b >>= _) = _ at h
          rcases boolean_cases d b with ⟨q, _, hq⟩ | ⟨hb, hdemand⟩
          · rw [hq] at h
            cases h
          · rw [hdemand] at h
            cases h
            exact .inr ⟨b, rfl, hb, rfl⟩
      · cases h
    · rw [hdemand] at h
      cases h
      exact .inr (.inl ⟨a, rfl, ha, rfl⟩)

/-- A failed evaluation applied the operator that it names to what is no boolean. The induction
    is along the tree: the demand is that of a part, or of the operator at the root. -/
theorem exists_applies_of_demand {n : Node} (h : n.eval env = demand c) :
    ∃ v, Applies env n c v ∧ v.isBool = false ∧ c ≠ "not" := by
  induction n with
  | itself v | truth v => cases h
  | name key =>
    -- a key that is no text fails, but with no demand
    refine absurd h (ne_demand_of_plain (plain_bind ?_ fun name => ?_) c)
    · cases key <;> rfl
    · cases name <;> rfl
  | unary op e ih =>
    rw [Node.eval] at h
    cases he : e.eval env with
    | error err =>
      rw [he] at h
      obtain ⟨v, hv, hrest⟩ := ih (he.trans h)
      exact ⟨v, .inOperand hv, hrest⟩
    | ok v =>
      rw [he] at h
      exact absurd h (ne_demand_of_plain (plain_applyUnary op v) c)
  | binary op l r ihl ihr =>
    have hinLeft (hl : l.eval env = demand c) :
        ∃ v, Applies env (.binary op l r) c v ∧ v.isBool = false ∧ c ≠ "not" := by
      obtain ⟨v, hv, hrest⟩ := ihl hl
      exact ⟨v, .inLeft hv, hrest⟩
    cases hop : connective? op with
    | some d =>
      rcases cases_of_demand hop h with hl | ⟨v, hl, hv, rfl⟩ | ⟨hl, hr | ⟨v, hr, hv, rfl⟩⟩
      · exact hinLeft hl
      · exact ⟨v, .left hop hl, hv, ne_not_of_connective hop⟩
      · obtain ⟨v, hv, hrest⟩ := ihr hr
        refine ⟨v, .inRight hl (fun d' hd' => ?_) hv, hrest⟩
        rw [Option.some.inj (hop.symm.trans hd')]
      · exact ⟨v, .right hop hl hr, hv, ne_not_of_connective hop⟩
    | none =>
      rw [eval_operator hop] at h
      cases hl : l.eval env with
      | error err => rw [hl] at h; exact hinLeft (hl.trans h)
      | ok a =>
        rw [hl] at h
        cases hr : r.eval env with
        | error err =>
          rw [hr] at h
          obtain ⟨v, hv, hrest⟩ := ihr (hr.trans h)
          exact ⟨v, .inRight hl (fun d hd => nomatch hop.symm.trans hd) hv, hrest⟩
        | ok b =>
          rw [hr] at h
          exact absurd h (ne_demand_of_plain (plain_applyBinary op a b) c)

theorem demand_of_applies {n : Node} (h : Applies env n c v) (hv : v.isBool = false)
    (hc : c ≠ "not") : n.eval env = demand c := by
  induction h with
  | left hop hl =>
    rw [eval_connective hop, hl]
    change (boolean _ _ >>= _) = _
    rw [boolean_of_not_isBool hv]
    rfl
  | right hop hl hr =>
    rw [eval_connective hop, hl, hr]
    change (if _ = _ then boolean _ _ >>= _ else _) = _
    rw [if_pos rfl, boolean_of_not_isBool hv]
    rfl
  | operand => exact absurd rfl hc
  | @inLeft op _ _ _ _ _ ih =>
    cases hop : connective? op with
    | none => rw [eval_operator hop, ih hv hc]; rfl
    | some d => rw [eval_connective hop, ih hv hc]; rfl
  | @inRight op _ _ _ _ _ hl hopen _ ih =>
    cases hop : connective? op with
    | none => rw [eval_operator hop, hl, ih hv hc]; rfl
    | some d =>
      rw [eval_connective hop, hl, hopen d hop, ih hv hc]
      change (if _ = _ then _ else _) = _
      rw [if_pos rfl]
      rfl
  | inOperand _ ih => rw [Node.eval, ih hv hc]; rfl

theorem eval_eq_demand_iff {tree : Value} (hdepth : (Node.ofValue tree).depth ≤ depthLimit)
    (c : String) : eval env tree = demand c ↔
      ∃ v, Applies env (Node.ofValue tree) c v ∧ v.isBool = false ∧ c ≠ "not" := by
  have heval : eval env tree = (Node.ofValue tree).eval env := if_neg (Nat.not_lt.mpr hdepth)
  rw [heval]
  exact ⟨exists_applies_of_demand, fun ⟨_, h, hv, hc⟩ => demand_of_applies h hv hc⟩

theorem eval_negation (hop : isNegation op) {e : Node} (he : e.eval env = .ok v) :
    (Node.unary op e).eval env = .ok (.bool (!v.truthy)) := by
  have hother : op.isOneOf ["-", "neg"] = false ∧ op.isText "+" = false := by
    cases op with
    | str s =>
      have hs : s = "not" ∨ s = "!" := by simpa [isNegation, Value.isOneOf] using hop
      rcases hs with rfl | rfl <;> decide
    | _ => exact ⟨rfl, rfl⟩
  rw [Node.eval, he]
  change applyUnary op v = _
  simp only [applyUnary, hother.1, hother.2, Bool.false_eq_true, if_false]
  exact if_pos hop

end Expr

/-! ### Choices -/

namespace Run

open Session

/-- The branch that a choice takes: the first that has no condition and is for all other cases,
    or whose condition counts as true. -/
inductive Selects (env : Env) : List Value → Option Value → Prop
  | none : Selects env [] none
  | when {fs : Fields Value} {rest : List Value} {condition v : Value}
      (hwhen : fs.get? "when" = some condition) (hv : Expr.eval env condition = .ok v)
      (htrue : v.truthy) : Selects env (.obj fs :: rest) (some (.obj fs))
  | otherwise {fs : Fields Value} {rest : List Value} (hwhen : fs.get? "when" = none)
      (htrue : (fs.getD "otherwise" .null).truthy) :
      Selects env (.obj fs :: rest) (some (.obj fs))
  | pass {fs : Fields Value} {rest : List Value} {condition v : Value} {out : Option Value}
      (hwhen : fs.get? "when" = some condition) (hv : Expr.eval env condition = .ok v)
      (hfalse : v.truthy = false) (h : Selects env rest out) : Selects env (.obj fs :: rest) out
  | skip {fs : Fields Value} {rest : List Value} {out : Option Value}
      (hwhen : fs.get? "when" = none) (hfalse : (fs.getD "otherwise" .null).truthy = false)
      (h : Selects env rest out) : Selects env (.obj fs :: rest) out

def takeBranch (take : Value → Run Outcome) : Option Value → Run Outcome
  | some b => branchBlock take b
  | none => pure none

/-- A branch is run, and entries are made before and after it. -/
def noted (c : Run Outcome) (after : List Value) : Run Outcome := do
  let out ← c
  change (·.noting after)
  pure out

theorem run_noted_nil (s : Session) (c : Run Outcome) : s.run (noted c []) = s.run c := by
  rw [noted, run_bind]
  rcases s.run c with ⟨e | out, t⟩
  · rfl
  · exact congrArg (Except.ok out, ·) t.noting_nil

theorem run_branches (take : Value → Run Outcome) (lineage : Lineage) {env : Env} {bs : List Value}
    {out : Option Value} (h : Selects env bs out) (hs : s.ready) (henv : s.env = env)
    (index : Nat) : ∃ before after, s.run (branches take lineage index bs) =
      (s.noting before).run (noted (takeBranch take out) after) := by
  have hvalue {c : Value} {s : Session} (hs : s.ready = true) (henv : s.env = env) :
      s.valueIn c = Expr.eval env c := by
    rw [valueIn, if_pos hs, henv]
  induction h generalizing s index with
  | none => exact ⟨[], [], by rw [run_noted_nil, noting_nil]; rfl⟩
  | when hwhen hv htrue =>
    rw [run_branches_when (b := .obj _) hwhen, hvalue hs henv, hv]
    dsimp only
    rw [if_pos htrue]
    exact ⟨[_], [], (run_noted_nil _ _).symm⟩
  | pass hwhen hv hfalse _ ih =>
    rw [run_branches_when (b := .obj _) hwhen, hvalue hs henv, hv]
    dsimp only
    rw [if_neg (Bool.eq_false_iff.mp hfalse)]
    obtain ⟨before, after, hrest⟩ := ih (s := s.noting _) hs henv (index + 1)
    rw [noting_noting] at hrest
    exact ⟨_, after, hrest⟩
  | @otherwise fs _ hwhen htrue =>
    have hyes : ((Value.obj fs).field "otherwise").truthy := htrue
    rw [run_branches_plain (b := .obj fs) rfl hwhen, if_pos hyes]
    exact ⟨[], [_], by rw [noting_nil]; rfl⟩
  | @skip fs _ _ hwhen hfalse _ ih =>
    have hno : ((Value.obj fs).field "otherwise").truthy = false := hfalse
    rw [run_branches_plain (b := .obj fs) rfl hwhen, if_neg (Bool.eq_false_iff.mp hno)]
    exact ih hs henv (index + 1)

end Run

open Loom.Expr Loom.Run in
/-- An evaluation fails with the demand for booleans exactly if it applies `and` or `or` to what
    is none. `not` is given any value and tells whether it counts as false. A choice runs the
    block of the branch whose condition is the first that counts as true, whatever its value is,
    and no other. -/
theorem booleans_demanded_by_connectives (s : Session) :
    (∀ tree : Value, (Node.ofValue tree).depth ≤ Expr.depthLimit → ∀ c,
      Expr.eval s.env tree = .error (.run (.booleanOperands c)) ↔
        ∃ v, Applies s.env (Node.ofValue tree) c v ∧ v.isBool = false ∧ c ≠ "not") ∧
    (∀ (op : Value) (e : Node) (v : Value), isNegation op = true →
      e.eval s.env = .ok v → (Node.unary op e).eval s.env = .ok (.bool (!v.truthy))) ∧
    ∀ (take : Value → Run Outcome) (run : Value → Fields Value → Run Value) (v : Value)
      (choice : Step) (bs : List Value) (out : Option Value),
      Step.ofValue v = .ok choice → choice.verb = "Choose" →
      ((choice.arg "branches").orElse (.list [])).items = .ok bs → s.ready = true →
      Selects s.env bs out → ∃ before after, s.run (step take run v) =
        (s.noting before).run (noted (takeBranch take out) after) := by
  refine ⟨fun tree hdepth c => eval_eq_demand_iff hdepth c, fun op e v hop he =>
    eval_negation hop he, ?_⟩
  intro take run v choice bs out hchoice hverb hbs hs hout
  rw [run_step_choose s hchoice hverb hbs]
  exact run_branches take _ hout hs rfl 0

def numericChoice : Value := .obj [("verb", .str "Choose"), ("args", .obj [("branches", .list [.obj
    [("when", (Expr.number (.int 1)).toValue), ("steps", .list [])]])])]

open Loom.Expr Loom.Run in
/-- `x and true` fails where `x` is a number, `not x` does not, and the branch of a choice on a
    number is run. -/
theorem booleans_demanded_by_connectives_number :
    let both : Expr := .binary .and (.name "x") (.bool true)
    let branch : Value := .obj [("when", (Expr.number (.int 1)).toValue), ("steps", .list [])]
    let s := { Session.start .null false [] [] with env := [("x", .int 1)], ready := true }
    Expr.eval s.env both.toValue = .error (.run (.booleanOperands "and")) ∧
      (∃ v, Applies s.env (Node.ofValue both.toValue) "and" v ∧ v.isBool = false ∧ "and" ≠ "not") ∧
      (Node.unary (.str "not") (.name (.str "x"))).eval s.env = .ok (.bool false) ∧
      ∃ before after, s.run (step (takeStep 1) (fun _ _ => pure .null) numericChoice) =
        (s.noting before).run (noted (takeBranch (takeStep 1) (some branch)) after) := by
  intro both branch s
  obtain ⟨hdemand, hnot, hchoice⟩ := booleans_demanded_by_connectives s
  have heval : Expr.eval s.env both.toValue = .error (.run (.booleanOperands "and")) := rfl
  exact ⟨heval, (hdemand _ (by decide) _).mp heval, hnot _ _ (.int 1) rfl rfl,
    hchoice _ _ _ _ [branch] _ rfl rfl rfl rfl (.when rfl rfl rfl)⟩

end Loom
