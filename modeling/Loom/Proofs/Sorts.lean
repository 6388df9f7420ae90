import Loom.Check.Module
import Loom.Expr.Eval
import Loom.Flow.Statement
import Loom.Proofs.Fields

/-!
# Soundness of Sorts

The sort of an expression is told from its shape alone, its value from the
variables. Whatever these hold, a value is of the sort that was told.

The two are separate recursions over one document, and they part company at the
operators: a boolean counts as a number for `+` and `*`, a name may stand for
anything, and `*` repeats texts. So each operator needs a lemma of its own on the
values it can give, once from two numbers and once, for `+`, from a single text.
The rest is an induction over the expression.
-/

namespace Loom

open Value

namespace Check

inductive ExprSort.Admits : ExprSort → Value → Prop
  | bool (b : Bool) : Admits .boolean (.bool b)
  | int (i : Int) : Admits .number (.int i)
  | float (x : Float) : Admits .number (.float x)
  | str (s : String) : Admits .text (.str s)
  | span (first last : Expr) : Admits .range (Expr.range first last).toValue
  | any (v : Value) : Admits .unknown v

end Check

open Check

namespace Value

variable {a b v : Value}

theorem admits_arith {ints : Int → Int → Int} {floats : Float → Float → Float} {x y : Numeric}
    (h : arith ints floats x y = .ok v) : ExprSort.number.Admits v := by
  unfold arith at h
  split at h
  · cases h
    exact .int _
  · obtain ⟨p, _, h⟩ := of_bind_ok h
    obtain ⟨q, _, h⟩ := of_bind_ok h
    cases h
    exact .float _

theorem admits_divNumeric {x y : Numeric} (h : divNumeric x y = .ok v) :
    ExprSort.number.Admits v := by
  unfold divNumeric at h
  split at h
  · unfold divInts at h
    split at h
    · cases h
    · dsimp only at h
      split at h
      · cases h
        exact .float _
      · cases h
  · obtain ⟨p, _, h⟩ := of_bind_ok h
    obtain ⟨q, _, h⟩ := of_bind_ok h
    split at h
    · cases h
    · cases h
      exact .float _

theorem exists_numeric (h : ExprSort.number.Admits a) : ∃ x, a.numeric? = some x := by
  cases h with
  | int i => exact ⟨.int i, rfl⟩
  | float x => exact ⟨.float x, rfl⟩

theorem admits_number (ha : ExprSort.number.Admits a) (hb : ExprSort.number.Admits b)
    (h : a.add b = .ok v ∨ a.sub b = .ok v ∨ a.mul b = .ok v ∨ a.div b = .ok v) :
    ExprSort.number.Admits v := by
  obtain ⟨x, hx⟩ := exists_numeric ha
  obtain ⟨y, hy⟩ := exists_numeric hb
  simp only [add, sub, mul, div, hx, hy] at h
  rcases h with h | h | h | h
  · exact admits_arith h
  · exact admits_arith h
  · exact admits_arith h
  · exact admits_divNumeric h

theorem admits_text (hab : ExprSort.text.Admits a ∨ ExprSort.text.Admits b)
    (h : a.add b = .ok v) : ExprSort.text.Admits v := by
  rcases hab with hs | ht
  · cases hs with
    | str s => cases b <;> cases h; exact .str _
  · cases ht with
    | str t => cases a <;> cases h; exact .str _

end Value

namespace Expr

open Node

variable {v a b : Value}

theorem admits_compareBy {o : Value.Order}
    (h : (compareBy o a b).map Value.bool = .ok v) : ExprSort.boolean.Admits v := by
  cases hc : compareBy o a b with
  | error e => rw [hc] at h; cases h
  | ok c =>
    rw [hc] at h
    cases h
    exact .bool c

theorem cases_arithmeticSort (s t : ExprSort) :
    s = .number ∧ t = .number ∧ arithmeticSort s t = .number ∨ arithmeticSort s t = .unknown := by
  cases s <;> cases t <;> decide

theorem admits_arithmetic {s t : ExprSort} (ha : s.Admits a) (hb : t.Admits b)
    (h : a.add b = .ok v ∨ a.sub b = .ok v ∨ a.mul b = .ok v ∨ a.div b = .ok v) :
    (arithmeticSort s t).Admits v := by
  rcases cases_arithmeticSort s t with ⟨rfl, rfl, hsort⟩ | hsort
  · rw [hsort]
    exact admits_number ha hb h
  · rw [hsort]
    exact .any v

variable {op : BinaryOp}

theorem admits_applyBinary (hand : op ≠ .and) (hor : op ≠ .or) {s t : ExprSort} (ha : s.Admits a) (hb : t.Admits b)
    (h : applyBinary (.str op.symbol) a b = .ok v) :
    (binarySort (.str op.symbol) s t).Admits v := by
  cases op with
  | and => exact absurd rfl hand
  | or => exact absurd rfl hor
  | eq | ne => cases h; exact .bool _
  | lt | le | gt | ge => exact admits_compareBy h
  | add =>
    change (if s == .text || t == .text then ExprSort.text else arithmeticSort s t).Admits v
    split
    · rename_i htext
      rw [Bool.or_eq_true, beq_iff_eq, beq_iff_eq] at htext
      refine admits_text (htext.imp ?_ ?_) h
      · rintro rfl
        exact ha
      · rintro rfl
        exact hb
    · exact admits_arithmetic ha hb (.inl h)
  | sub => exact admits_arithmetic ha hb (.inr (.inl h))
  | mul => exact admits_arithmetic ha hb (.inr (.inr (.inl h)))
  | div => exact admits_arithmetic ha hb (.inr (.inr (.inr h)))

theorem admits_sign (h : a.plus? = some v ∨ a.negate? = some v) : ExprSort.number.Admits v := by
  unfold plus? negate? at h
  cases hn : a.numeric? with
  | none =>
    rw [hn] at h
    rcases h with h | h <;> cases h
  | some n =>
    rw [hn] at h
    cases n with
    | int i => rcases h with h | h <;> cases h <;> exact .int _
    | float x => rcases h with h | h <;> cases h <;> exact .float _

theorem admits_applyUnary {op : UnaryOp} {s : ExprSort}
    (h : applyUnary (.str op.symbol) a = .ok v) : (unarySort (.str op.symbol) s).Admits v := by
  have hnumber : ExprSort.number.Admits v →
      (if s == .number then ExprSort.number else .unknown).Admits v := by
    intro hv
    split
    · exact hv
    · exact .any v
  cases op with
  | not => cases h; exact .bool _
  -- a sign makes a number of a boolean too, and then no sort is told
  | plus =>
    refine hnumber (admits_sign (a := a) (.inl ?_))
    cases hw : a.plus? with
    | none => simp [applyUnary, UnaryOp.symbol, isOneOf, isText, hw] at h
    | some w => simpa [applyUnary, UnaryOp.symbol, isOneOf, isText, hw] using h
  | minus =>
    refine hnumber (admits_sign (a := a) (.inr ?_))
    cases hw : a.negate? with
    | none => simp [applyUnary, UnaryOp.symbol, isOneOf, hw] at h
    | some w => simpa [applyUnary, UnaryOp.symbol, isOneOf, hw] using h

/-! ### Expressions -/

theorem truthy_toValue (e : Expr) : e.toValue.truthy := by
  cases e <;> rfl

theorem ofValue_unary (op : UnaryOp) (e : Expr) :
    Node.ofValue (unary op e).toValue = .unary (.str op.symbol) (Node.ofValue e.toValue) := by
  change Node.unary _ (if e.toValue.truthy then _ else _) = _
  rw [if_pos (truthy_toValue e)]
  rfl

theorem admits_connective {env : Env} (hop : op = .and ∨ op = .or) {l r : Node} (h : (Node.binary (.str op.symbol) l r).eval env = .ok v) :
    ExprSort.boolean.Admits v := by
  rcases hop with rfl | rfl
  · obtain ⟨a, _, h⟩ := of_bind_ok (show (_ >>= _) = _ from h)
    obtain ⟨p, _, h⟩ := of_bind_ok h
    split at h
    · obtain ⟨b, _, h⟩ := of_bind_ok h
      obtain ⟨q, _, h⟩ := of_bind_ok h
      cases h
      exact .bool _
    · cases h
      exact .bool _
  · obtain ⟨a, _, h⟩ := of_bind_ok (show (_ >>= _) = _ from h)
    obtain ⟨p, _, h⟩ := of_bind_ok h
    split at h
    · cases h
      exact .bool _
    · obtain ⟨b, _, h⟩ := of_bind_ok h
      obtain ⟨q, _, h⟩ := of_bind_ok h
      cases h
      exact .bool _

theorem admits_eval (env : Env) (e : Expr) :
    ∀ {v : Value}, (Node.ofValue e.toValue).eval env = .ok v → (sortOf e.toValue).Admits v := by
  induction e with
  | number n =>
    intro v h
    cases n <;> cases h
    · exact .int _
    · exact .float _
  | text s => intro v h; cases h; exact .str s
  | bool b => intro v h; cases h; exact .bool b
  | name s => intro v _; exact .any v
  | range first last => intro v h; cases h; exact .span first last
  | unary op e _ =>
    intro v h
    rw [ofValue_unary] at h
    obtain ⟨a, _, h⟩ := of_bind_ok (show (_ >>= _) = _ from h)
    exact admits_applyUnary h
  | binary op l r ihl ihr =>
    intro v h
    -- the right side of `and` and `or` may be left alone, so they are no operators on values
    by_cases hop : op = .and ∨ op = .or
    · have hsort : sortOf (binary op l r).toValue = .boolean := by
        rcases hop with rfl | rfl <;> rfl
      rw [hsort]
      exact admits_connective hop h
    · rw [not_or] at hop
      have heval : (Node.ofValue (binary op l r).toValue).eval env = (do
          let a ← (Node.ofValue l.toValue).eval env
          let b ← (Node.ofValue r.toValue).eval env
          applyBinary (.str op.symbol) a b) := by
        cases op with
        | and => exact absurd rfl hop.1
        | or => exact absurd rfl hop.2
        | _ => rfl
      rw [heval] at h
      obtain ⟨a, ha, h⟩ := of_bind_ok h
      obtain ⟨b, hb, h⟩ := of_bind_ok h
      exact admits_applyBinary hop.1 hop.2 (ihl ha) (ihr hb) h

end Expr

namespace Flow

theorem exists_of_readExpr {source tree : Value} (h : readExpr source = .ok tree) :
    ∃ e : Expr, tree = e.toValue := by
  have htext : ∀ s, readText s = .ok tree → ∃ e : Expr, tree = e.toValue := by
    intro s hs
    unfold readText at hs
    split at hs
    · rename_i e _
      cases hs
      exact ⟨e, rfl⟩
    · cases hs
  unfold readExpr at h
  split at h
  · exact htext _ h
  · split at h
    · exact htext _ h
    · split at h <;> cases h

end Flow

namespace Check

/-- The value of an expression that was read is of the sort that is told for it,
    whatever the variables hold. -/
theorem eval_of_sortOf {source tree : Value} (hread : Flow.readExpr source = .ok tree) (env : Env)
    {v : Value} (heval : Expr.eval env tree = .ok v) : (sortOf tree = .boolean → v.isBool = true) ∧
      (sortOf tree = .number → v.kind = .int ∨ v.kind = .float) ∧
      (sortOf tree = .text → v.isStr = true) := by
  obtain ⟨e, rfl⟩ := Flow.exists_of_readExpr hread
  have hadmits : (sortOf e.toValue).Admits v := by
    unfold Expr.eval at heval
    dsimp only at heval
    split at heval
    · cases heval
    · exact Expr.admits_eval env e heval
  refine ⟨fun hsort => ?_, fun hsort => ?_, fun hsort => ?_⟩
  all_goals
    rw [hsort] at hadmits
    cases hadmits
  · rfl
  · exact .inl rfl
  · exact .inr rfl
  · rfl

/-- A sum of which one side is a name is told to be a text, and is one where the name
    stands for a text. -/
theorem eval_of_sortOf_sum : let sum : Expr := .binary .add (.name "x") (.text "!")
    Flow.readExpr (.str "x + \"!\"") = .ok sum.toValue ∧ sortOf sum.toValue = .text ∧
      Expr.eval [("x", .str "a")] sum.toValue = .ok (.str "a!") ∧
      (Value.str "a!").isStr = true := by
  have hread : Flow.readExpr (.str "x + \"!\"") =
      .ok (Expr.binary .add (.name "x") (.text "!")).toValue :=
    Value.eq_ok_of_isCopy (by decide +kernel)
  exact ⟨hread, rfl, rfl, (eval_of_sortOf hread [("x", .str "a")] rfl).2.2 rfl⟩

end Check

end Loom
