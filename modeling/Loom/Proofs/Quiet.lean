import Loom.Session.Run

/-!
# Ordinary Failures

A run may fail for many reasons. Two of them stand for something that a step is: its verb does
not run, or its address may not be fetched. All other failures are ordinary, and here the
computations that cannot fail but in an ordinary way are gathered: reaching into values,
arithmetic, expressions, the reading of a step, and fetching. A computation that is put together
from such is one too.
-/

namespace Loom

variable {α β : Type}
variable {r : Except Error α} {f : α → Except Error β} (v : Value) (a b : Value)

def Error.verb? : Error → Option String
  | .run (.unsupportedVerb verb) => some verb
  | _ => none

/-- The verb that an outcome complains about, if it does. -/
def complaint? : Except Error α → Option String
  | .ok _ => none
  | .error e => e.verb?

/-- Whether an error neither complains about a verb nor refuses an address. -/
def Error.isOrdinary : Error → Bool
  | .run (.unsupportedVerb _) => false
  | .run .fetchDisallowed => false
  | _ => true

/-- Whether it is no demand for a boolean either. -/
def Error.isPlain : Error → Bool
  | .run (.booleanOperands _) => false
  | e => e.isOrdinary

theorem Error.isOrdinary_of_isPlain {e : Error} (h : e.isPlain) : e.isOrdinary := by
  unfold isPlain at h
  split at h
  · cases h
  · exact h

theorem Error.verb?_of_isOrdinary {e : Error} (h : e.isOrdinary) : e.verb? = none := by
  cases e with
  | run r =>
    cases r with
    | unsupportedVerb verb => cases h
    | _ => rfl
  | _ => rfl

/-! ### What fails in an ordinary way only -/

/-- Whether an outcome, if it is a failure, is one of certain failures. -/
def endsWithin (p : Error → Bool) : Except Error α → Bool
  | .ok _ => true
  | .error e => p e

theorem endsWithin_bind {p : Error → Bool} (hr : endsWithin p r)
    (hf : ∀ a, endsWithin p (f a)) : endsWithin p (r >>= f) := by
  cases r with
  | ok a => exact hf a
  | error e => exact hr

def Quiet (r : Except Error α) : Prop := endsWithin Error.isOrdinary r = true

theorem quiet_bind (hr : Quiet r) (hf : ∀ a, Quiet (f a)) : Quiet (r >>= f) := endsWithin_bind hr hf

/-- A computation fails in a plain way, if it does. -/
def Plain (r : Except Error α) : Prop := endsWithin Error.isPlain r = true

theorem Plain.quiet (h : Plain r) : Quiet r := by
  cases r with
  | ok a => rfl
  | error e => exact Error.isOrdinary_of_isPlain h

theorem plain_bind (hr : Plain r) (hf : ∀ a, Plain (f a)) : Plain (r >>= f) := endsWithin_bind hr hf

theorem plain_map (f : α → β) (hr : Plain r) : Plain (r.map f) := by
  cases r with
  | ok a => rfl
  | error e => exact hr

namespace Value

theorem quiet_lookup (name : String) : Quiet (v.lookup name) := by
  cases v <;> rfl

theorem quiet_hasMember (name : String) : Quiet (v.hasMember name) := by
  cases v <;> rfl

theorem quiet_require (name : String) : Quiet (v.require name) := by
  cases v with
  | obj fs =>
    unfold require
    dsimp only
    split <;> rfl
  | _ => rfl

theorem quiet_items : Quiet v.items := by
  cases v <;> rfl

theorem quiet_toName : Quiet v.toName := by
  cases v <;> rfl

theorem quiet_toText (member : String) : Quiet (v.toText member) := by
  cases v <;> rfl

theorem quiet_shown : Quiet v.shown := by
  unfold shown
  split <;> rfl

theorem quiet_toPair (index : Nat) (v : Value) : Quiet (v.toPair index) := by
  unfold toPair
  split
  · rfl
  · split <;> rfl
  · rfl

theorem quiet_pairsFrom (index : Nat) (acc : Fields Value) (vs : List Value) :
    Quiet (pairsFrom index acc vs) := by
  induction vs generalizing index acc with
  | nil => rfl
  | cons v vs ih => exact quiet_bind (quiet_toPair index v) fun _ => ih _ _

theorem quiet_toFieldsOrNone : Quiet v.toFieldsOrNone := by
  unfold toFieldsOrNone
  split
  · cases v with
    | obj fs => rfl
    | _ => exact quiet_bind (quiet_items _) fun _ => quiet_pairsFrom _ _ _
  · rfl

theorem plain_numericToFloat (n : Numeric) : Plain n.toFloat := by
  cases n with
  | int i =>
    unfold Numeric.toFloat
    dsimp only
    split <;> rfl
  | float x => rfl

theorem quiet_truncated : Quiet v.truncated := by
  unfold truncated
  split
  · split <;> rfl
  · rfl
  · split <;> rfl

theorem quiet_toInt : Quiet v.toInt := by
  unfold toInt
  split
  · split
    · rfl
    · unfold badInteger
      split <;> rfl
  · exact quiet_truncated v

theorem quiet_toFloat : Quiet v.toFloat := by
  unfold toFloat
  split
  · split <;> rfl
  · split
    · exact (plain_numericToFloat _).quiet
    · rfl

theorem plain_arith (ints : Int → Int → Int) (floats : Float → Float → Float) (a b : Numeric) :
    Plain (arith ints floats a b) := by
  unfold arith
  split
  · rfl
  · exact plain_bind (plain_numericToFloat a) fun _ =>
      plain_bind (plain_numericToFloat b) fun _ => rfl

theorem plain_add : Plain (a.add b) := by
  unfold add
  split
  · exact plain_arith _ _ _ _
  · split <;> rfl

theorem plain_sub : Plain (a.sub b) := by
  unfold sub
  split
  · exact plain_arith _ _ _ _
  · rfl

theorem plain_repetitions (size : Nat) (count : Int) {overlong : Error}
    (h : overlong.isPlain) : Plain (repetitions size count overlong) := by
  unfold repetitions
  split
  · rfl
  · split
    · exact h
    · split <;> rfl

theorem plain_repeatItems (count : Int) : Plain (v.repeatItems count) := by
  unfold repeatItems
  split
  · exact plain_bind (plain_repetitions _ _ rfl) fun _ => rfl
  · exact plain_bind (plain_repetitions _ _ rfl) fun _ => rfl
  · exact plain_bind (plain_repetitions _ _ rfl) fun _ => rfl
  · rfl

theorem plain_mul : Plain (a.mul b) := by
  unfold mul
  split
  · exact plain_arith _ _ _ _
  · split
    · split
      · exact plain_repeatItems _ _
      · rfl
    · split
      · split
        · exact plain_repeatItems _ _
        · rfl
      · rfl

theorem plain_div : Plain (a.div b) := by
  unfold div
  split
  · unfold divNumeric
    split
    · unfold divInts
      split
      · rfl
      · dsimp only
        split <;> rfl
    · refine plain_bind (plain_numericToFloat _) fun _ => ?_
      refine plain_bind (plain_numericToFloat _) fun _ => ?_
      split <;> rfl
  · rfl

theorem plain_compareScalars (o : Order) (a b : Value) : Plain (compareScalars o a b) := by
  unfold compareScalars
  split
  · rfl
  · split <;> rfl

mutual

theorem plain_compareBy (o : Order) : ∀ a b : Value, Plain (compareBy o a b)
  | a, b => by
    unfold compareBy
    split
    · exact plain_compareLists o _ _
    · exact plain_compareScalars o _ _

theorem plain_compareLists (o : Order) : ∀ xs ys : List Value, Plain (compareLists o xs ys)
  | [], _ => rfl
  | _ :: _, [] => rfl
  | x :: xs, y :: ys => by
    unfold compareLists
    split
    · exact plain_compareLists o xs ys
    · exact plain_compareBy o x y

end

end Value

namespace Expr.Node

theorem plain_applyBinary (op l r : Value) : Plain (applyBinary op l r) := by
  have hcompare (o : Value.Order) : Plain ((Value.compareBy o l r).map Value.bool) :=
    plain_map _ (Value.plain_compareBy o l r)
  unfold applyBinary
  split
  · exact Value.plain_add l r
  split
  · exact Value.plain_sub l r
  split
  · exact Value.plain_mul l r
  split
  · exact Value.plain_div l r
  split
  · rfl
  split
  · rfl
  split
  · exact hcompare _
  split
  · exact hcompare _
  split
  · exact hcompare _
  split
  · exact hcompare _
  · rfl

theorem plain_applyUnary (op v : Value) : Plain (applyUnary op v) := by
  unfold applyUnary
  split
  · split <;> rfl
  split
  · split <;> rfl
  split
  · rfl
  · rfl

theorem quiet_boolean (op : String) (v : Value) : Quiet (boolean op v) := by
  cases v <;> rfl

theorem quiet_eval (env : Env) (n : Node) : Quiet (n.eval env) := by
  induction n with
  | itself v => rfl
  | name key =>
    refine quiet_bind (Value.quiet_toName key) fun name => ?_
    cases name <;> rfl
  | truth v => rfl
  | binary op l r hl hr =>
    have hlast (op : String) : Quiet (do pure (Value.bool (← boolean op (← eval env r)))) :=
      quiet_bind hr fun _ => quiet_bind (quiet_boolean _ _) fun _ => rfl
    unfold eval
    split
    · refine quiet_bind hl fun a => quiet_bind (quiet_boolean _ a) fun b => ?_
      split
      · exact hlast "and"
      · rfl
    · split
      · refine quiet_bind hl fun a => quiet_bind (quiet_boolean _ a) fun b => ?_
        split
        · rfl
        · exact hlast "or"
      · exact quiet_bind hl fun a => quiet_bind hr fun b =>
          (plain_applyBinary op a b).quiet
  | unary op e he => exact quiet_bind he fun v => (plain_applyUnary op v).quiet

end Expr.Node

theorem Expr.quiet_eval (env : Env) (v : Value) : Quiet (Expr.eval env v) := by
  unfold Expr.eval
  dsimp only
  split
  · rfl
  · exact Node.quiet_eval env _

theorem Step.quiet_ofValue : Quiet (Step.ofValue v) :=
  quiet_bind (v.quiet_lookup _) fun _ => quiet_bind (Value.quiet_toText _ _) fun _ =>
    quiet_bind (Value.quiet_toFieldsOrNone _) fun _ => rfl

theorem Session.quiet_allowedDomains (doc : Value) : Quiet (allowedDomains doc) := by
  refine quiet_bind ?_ fun root => ?_
  · refine quiet_bind (doc.quiet_hasMember _) fun has => ?_
    cases has with
    | true =>
      refine quiet_bind (doc.quiet_require _) fun inner => ?_
      split <;> rfl
    | false => rfl
  · split <;> rfl

namespace Web

theorem quiet_fetch (network : Network) (url : String) (limit : Int) :
    Quiet (if Text.startsWith url fixtureMark then fetchFixture url limit
      else fetchHttp network url limit) := by
  split
  · unfold fetchFixture
    split
    · rfl
    · dsimp only
      split <;> rfl
  · have haddress : Quiet (requestAddress url) := by
      unfold requestAddress
      dsimp only
      split
      · rfl
      · split <;> rfl
    refine quiet_bind haddress fun address => ?_
    split <;> rfl

end Web

end Loom
