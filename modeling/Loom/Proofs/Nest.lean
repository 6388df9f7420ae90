import Loom.Proofs.Fields
import Loom.Proofs.Forest

/-!
# Reading Lines into a Forest

While the lines of a flow are read, a `Builder` holds the repetitions that are
still open. `Nest` is the same with nodes in the place of documents, so that a
proof can follow a line to where it is put. Every operation of the builder has
its counterpart here, and `toBuilder` carries one to the other.

What a nest lists is what its nodes list in the order of the text: first the
nodes outside, then each open repetition from the outermost inwards. Closing
repetitions changes the nest and not the listing, and a line that is read comes
at the end of it. That is all there is to say about where a statement can go
before the flow is brought into canonical form.
-/

namespace Loom.Flow

open Loom.Text Loom.Outline Node List

variable {verb : String} {text s : Value}

/-- An open repetition, its nodes last first. -/
structure OpenNode (α : Type) where
  level : Int
  origin : α
  args : Value
  nodes : List (Node α)

/-- The open repetitions, innermost first, and the nodes outside all of them,
    last first. -/
structure Nest (α : Type) where
  loops : List (OpenNode α) := []
  outer : List (Node α) := []

variable {α : Type}

theorem Node.toValues_reverse (ns : List (Node α)) : toValues ns.reverse = (toValues ns).reverse := by
  rw [toValues_eq_map, toValues_eq_map, map_reverse]

namespace OpenNode

def toLoop (l : OpenNode α) : OpenLoop := ⟨l.level, l.args, toValues l.nodes⟩

def close (l : OpenNode α) (inner : List (Node α)) : Node α :=
  .loop l.origin l.args (inner ++ l.nodes).reverse

theorem toValue_close (l : OpenNode α) (inner : List (Node α)) :
    (l.close inner).toValue = l.toLoop.close (toValues inner) := by
  rw [close, toValue, OpenLoop.close, toLoop, toValues_reverse, toValues_append]

end OpenNode

/-- What open repetitions list, innermost first. -/
def openEntries : List (OpenNode α) → List (Entry α)
  | [] => []
  | l :: rest => openEntries rest ++ .loop l.origin l.args :: entriesOf l.nodes.reverse

namespace Nest

def toBuilder (b : Nest α) : Builder := ⟨b.loops.map OpenNode.toLoop, toValues b.outer⟩

def entries (b : Nest α) : List (Entry α) := entriesOf b.outer.reverse ++ openEntries b.loops

def closeWhile (stays : Int → Bool) (inner outer : List (Node α)) : List (OpenNode α) → Nest α
  | [] => ⟨[], inner ++ outer⟩
  | l :: rest =>
    if stays l.level then ⟨{ l with nodes := inner ++ l.nodes } :: rest, outer⟩
    else closeWhile stays [l.close inner] outer rest

def leave (b : Nest α) (level : Int) : Nest α := closeWhile (· < level) [] b.outer b.loops

def push (b : Nest α) (n : Node α) : Nest α := match b.loops with
  | l :: rest => { b with loops := { l with nodes := n :: l.nodes } :: rest }
  | [] => { b with outer := n :: b.outer }

def openLoop (b : Nest α) (level : Int) (origin : α) (args : Value) : Nest α :=
  { b with loops := ⟨level, origin, args, []⟩ :: b.loops }

def forest (b : Nest α) : List (Node α) :=
  (closeWhile (fun _ => false) [] b.outer b.loops).outer.reverse

/-! ### The builder of a nest -/

theorem toBuilder_closeWhile (stays : Int → Bool) (inner outer : List (Node α))
    (loops : List (OpenNode α)) : (closeWhile stays inner outer loops).toBuilder
      = Builder.closeWhile stays (toValues inner) (toValues outer) (loops.map OpenNode.toLoop) := by
  induction loops generalizing inner with
  | nil => rw [closeWhile, toBuilder, toValues_append]; rfl
  | cons l rest ih =>
    rw [closeWhile, map_cons, Builder.closeWhile]
    change _ = if stays l.level then _ else _
    split
    · rw [toBuilder, map_cons, OpenNode.toLoop, toValues_append]
      rfl
    · rw [ih, toValues, l.toValue_close]
      rfl

theorem toBuilder_leave (b : Nest α) (level : Int) :
    (b.leave level).toBuilder = b.toBuilder.leave level :=
  toBuilder_closeWhile _ [] b.outer b.loops

theorem toBuilder_push (b : Nest α) (n : Node α) :
    (b.push n).toBuilder = b.toBuilder.push n.toValue := by
  rcases b with ⟨_ | ⟨l, rest⟩, outer⟩ <;> rfl

theorem toBuilder_openLoop (b : Nest α) (level : Int) (origin : α) (args : Value) :
    (b.openLoop level origin args).toBuilder = b.toBuilder.openLoop level args :=
  rfl

theorem toValues_forest (b : Nest α) : toValues b.forest = b.toBuilder.finish := by
  have h := toBuilder_closeWhile (fun _ => false) [] b.outer b.loops
  rw [forest, toValues_reverse, Builder.finish]
  exact congrArg (fun b : Builder => b.outer.reverse) h

/-! ### The listing of a nest -/

theorem entries_closeWhile (stays : Int → Bool) (inner outer : List (Node α))
    (loops : List (OpenNode α)) : (closeWhile stays inner outer loops).entries
      = entriesOf outer.reverse ++ (openEntries loops ++ entriesOf inner.reverse) := by
  induction loops generalizing inner with
  | nil => simp [closeWhile, entries, openEntries, entriesOf_append]
  | cons l rest ih =>
    rw [closeWhile]
    split
    · simp [entries, openEntries, entriesOf_append]
    · rw [ih]
      simp [openEntries, entriesOf, OpenNode.close, Node.entries, entriesOf_append]

theorem entries_leave (b : Nest α) (level : Int) : (b.leave level).entries = b.entries := by
  rw [leave, entries_closeWhile, reverse_nil, entriesOf, append_nil, entries]

theorem entries_push (b : Nest α) (n : Node α) : (b.push n).entries = b.entries ++ n.entries := by
  rcases b with ⟨_ | ⟨l, rest⟩, outer⟩
  · simp [push, entries, openEntries, entriesOf_append, entriesOf]
  · simp [push, entries, openEntries, entriesOf_append, entriesOf]

theorem entries_openLoop (b : Nest α) (level : Int) (origin : α) (args : Value) :
    (b.openLoop level origin args).entries = b.entries ++ [.loop origin args] := by
  rw [entries, openLoop, openEntries, ← append_assoc]
  rfl

theorem loops_closeAll (inner outer : List (Node α)) (loops : List (OpenNode α)) :
    (closeWhile (fun _ => false) inner outer loops).loops = [] := by
  induction loops generalizing inner with
  | nil => rfl
  | cons l rest ih => exact ih [l.close inner]

theorem entriesOf_forest (b : Nest α) : entriesOf b.forest = b.entries := by
  have h := entries_closeWhile (fun _ => false) [] b.outer b.loops
  rw [entries, loops_closeAll, openEntries, append_nil, reverse_nil, entriesOf, append_nil] at h
  exact h

end Nest

/-! ### What lines are read as -/

/-- The step of a line with what its reading gives to the verb. -/
inductive IsSpoken : Value → Prop
  | expr {verb : String} (h : verb ∈ ["Return", "Show"]) (e : Value) :
      IsSpoken (stepValue verb [("expr", e)])
  | bare {verb : String} (h : verb ∈ ["Ask", "Make", "Call"]) : IsSpoken (stepValue verb [])
  | ask (name : String) : IsSpoken (stepValue "Ask" [("name", .str name)])
  | askOr (name : String) (default : Value) :
      IsSpoken (stepValue "Ask" [("name", .str name), ("default", default)])
  | make (name : String) (e : Value) :
      IsSpoken (stepValue "Make" [("name", .str name), ("expr", e)])
  | call (target : String) (inputs : Fields Value) :
      IsSpoken (stepValue "Call" [("module", .str target), ("inputs", .obj inputs)])
  | callAs (target : String) (inputs : Fields Value) (result : String) :
      IsSpoken (stepValue "Call" [("module", .str target), ("inputs", .obj inputs),
        ("result", .str result)])

theorem isSpoken_of_readOneExpr {line : Value} (hverb : verb ∈ ["Return", "Show"])
    (h : readOneExpr verb line text = .ok s) : IsSpoken s := by
  rw [readOneExpr] at h
  split at h
  · obtain ⟨_, _, h⟩ := of_bind_ok h
    dsimp only at h
    split at h
    · cases h
      exact .expr hverb _
    · obtain ⟨e, _, h⟩ := of_bind_ok h
      cases h
      exact .expr hverb e
  · obtain ⟨e, _, h⟩ := of_bind_ok h
    cases h
    exact .expr hverb e

theorem isSpoken_of_readCall {line : Value} (h : readCall line = .ok s) : IsSpoken s := by
  obtain ⟨_, _, h⟩ := of_bind_ok h
  split at h
  · obtain ⟨inputs, _, h⟩ := of_bind_ok h
    split at h
    · cases h
      exact .callAs _ inputs _
    · cases h
      exact .call _ inputs
  · cases h
    exact .bare (by decide)

theorem isSpoken_of_readAsk {line : Value} (h : readAsk line text = .ok s) : IsSpoken s := by
  obtain ⟨_, _, h⟩ := of_bind_ok h
  split at h
  · dsimp only at h
    split at h
    · obtain ⟨d, _, h⟩ := of_bind_ok h
      cases h
      exact .askOr _ d
    · cases h
      exact .ask _
  · dsimp only at h
    split at h
    case' isTrue => obtain ⟨_, _, h⟩ := of_bind_ok h
    -- from here on alike, whether there is a text or not
    all_goals
      obtain ⟨found, _, h⟩ := of_bind_ok h
      cases found with
      | none =>
        cases h
        exact .bare (by decide)
      | some m =>
        obtain ⟨d, _, h⟩ := of_bind_ok h
        cases h
        exact .askOr _ d

theorem isSpoken_of_readMake {line : Value} (h : readMake line text = .ok s) : IsSpoken s := by
  obtain ⟨sentence, _, h⟩ := of_bind_ok h
  have hmade : ∀ m : Pattern.Match, (do
      pure (stepValue "Make"
        [("name", .str (m.group "name")), ("expr", ← readPhrase (m.group "expr"))])) = .ok s →
      IsSpoken s := by
    intro m h
    obtain ⟨e, _, h⟩ := of_bind_ok h
    cases h
    exact .make _ e
  dsimp only at h
  split at h
  · exact hmade _ h
  · split at h
    case' isTrue => obtain ⟨_, _, h⟩ := of_bind_ok h
    -- the readings after the first, alike whether there is a text or not
    all_goals
      obtain ⟨t, _, h⟩ := of_bind_ok h
      split at h
      · exact hmade _ h
      · split at h
        · exact hmade _ h
        · split at h
          · exact hmade _ h
          · cases h
            exact .bare (by decide)

theorem isSpoken_of_readLine (h : readLine verb text = .ok s) : IsSpoken s := by
  rw [readLine] at h
  split at h
  · exact isSpoken_of_readOneExpr (by decide) h
  · exact isSpoken_of_readOneExpr (by decide) h
  · exact isSpoken_of_readAsk h
  · exact isSpoken_of_readMake h
  · exact isSpoken_of_readMake h
  · exact isSpoken_of_readCall h
  · exact isSpoken_of_readOneExpr (by decide) h

theorem isStatement_of_readLine (h : readLine verb text = .ok s) : IsStatement s := by
  have hspoken := isSpoken_of_readLine h
  clear h
  cases hspoken with
  | @expr verb hverb e | @bare verb hverb => exact ⟨verb, _, rfl, by revert verb; decide⟩
  | _ => exact ⟨_, _, rfl, by decide⟩

/-! ### What one step does -/

/-- The verb of a step, which may be its whole line. -/
def verbOf (step : Value) : String := strip ((step.field "verb").str?.getD "")

variable {step : Value} {rest : List Value}

theorem strip_eq_verbOf {t : String}
    (h : ((step.field "verb").orElse (.str "")).toText "strip" = .ok t) : strip t = verbOf step := by
  rw [verbOf]
  rw [Value.orElse] at h
  split at h
  · cases hv : step.field "verb" with
    | str s => rw [hv] at h; exact congrArg strip (Except.ok.inj h).symm
    | _ => rw [hv] at h; exact nomatch h
  · rename_i hfalse
    have ht : t = "" := (Except.ok.inj h).symm
    rw [ht]
    cases hv : step.field "verb" with
    | str s =>
      rw [hv, Value.truthy, Bool.not_eq_true', Bool.not_eq_false, String.isEmpty_iff] at hfalse
      rw [hfalse]
      rfl
    | _ => rfl

/-- What a step of the outline does to a builder, given the steps after it. -/
inductive Takes (b : Builder) (step : Value) (rest : List Value) : Builder → Nat → Prop
  | other (hobj : step.isObj = false) : Takes b step rest b 0
  | header {level : Int} {header : String} {args : Value} {c : Builder}
      (hheader : headerOf? step (verbOf step) = some header)
      (hargs : headerArgs header = .ok args) (hadd : b.addHeader level args = .ok c) :
      Takes b step rest c 0
  | stub {level upTo own : Int} {found : StubSearch} {args : Value}
      (hrepeat : firstWord (verbOf step) = "repeat")
      (hheader : headerOf? step (verbOf step) = none)
      (hfound : findHeader level 3 0 0 rest = .ok found)
      (hargs : args = .obj [] ∨ ∃ header, headerArgs header = .ok args) :
      Takes b step rest ((b.leave upTo).openLoop own args) found.taken
  | line {level : Int} {s : Value} (hheader : headerOf? step (verbOf step) = none)
      (hread : readLine (verbOf step) (step.field "expr") = .ok s) :
      Takes b step rest ((b.leave level).push s) 0

theorem takes_of_buildStep {b c : Builder} {taken : Nat}
    (h : buildStep b step rest = .ok (c, taken)) : Takes b step rest c taken := by
  rw [buildStep] at h
  split at h
  · rename_i hobj
    cases h
    exact .other (by simpa using hobj)
  · obtain ⟨verb, hverb, h⟩ := of_bind_ok h
    rw [strip_eq_verbOf hverb] at h
    obtain ⟨level, _, h⟩ := of_bind_ok h
    split at h
    · rename_i hheader
      obtain ⟨args, hargs, h⟩ := of_bind_ok h
      obtain ⟨c', hadd, h⟩ := of_bind_ok h
      cases h
      exact .header hheader hargs hadd
    · rename_i hheader
      split at h
      · rename_i hrepeat
        obtain ⟨found, hfound, h⟩ := of_bind_ok h
        split at h
        · obtain ⟨args, hargs, h⟩ := of_bind_ok h
          cases h
          exact .stub (eq_of_beq hrepeat) hheader hfound (.inr ⟨_, hargs⟩)
        · cases h
          exact .stub (eq_of_beq hrepeat) hheader hfound (.inl rfl)
      · obtain ⟨s, hs, h⟩ := of_bind_ok h
        cases h
        exact .line hheader hs

/-! ### Statements -/

def Entry.isReturn : Entry α → Bool
  | line s => hasVerb "Return" s.step
  | loop _ _ => false

def Entry.statement? : Entry α → Option (Statement α)
  | line s => some s
  | loop _ _ => none

def statements (es : List (Entry α)) : List (Statement α) := es.filterMap Entry.statement?

theorem statements_append (es fs : List (Entry α)) :
    statements (es ++ fs) = statements es ++ statements fs :=
  filterMap_append

theorem statements_loop (origin : α) (args : Value) (es : List (Entry α)) :
    statements (.loop origin args :: es) = statements es :=
  rfl

namespace Nest

variable {b : Nest α}

theorem exists_of_takeStub {r : Builder × Value} (h : b.toBuilder.takeStub = .ok (some r)) :
    ∃ (b' : Nest α) (origin : α) (args : Value) (block : List (Node α)),
      r = (b'.toBuilder, (Node.loop origin args block).toValue) ∧
      Builder.isComplete args = .ok false ∧
      b.entries = b'.entries ++ .loop origin args :: entriesOf block := by
  have hstub : ∀ (n : Node α) (c : Builder),
      (do if ← (if (n.toValue.field "verb").isText "Repeat" then do
              pure !(← Builder.isComplete (n.toValue.field "args")) else pure false)
          then pure (some (c, n.toValue)) else pure none) = Except.ok (some r) →
      r = (c, n.toValue) ∧ ∃ origin args block, n = .loop origin args block ∧
        Builder.isComplete args = .ok false := by
    intro n c h
    obtain ⟨stub, hstub, h⟩ := of_bind_ok h
    cases stub with
    | false => cases h
    | true =>
      refine ⟨(Option.some_inj.mp (Except.ok.inj h)).symm, ?_⟩
      have hloop := hasVerb_repeat n
      rw [hasVerb] at hloop
      rw [hloop] at hstub
      cases n with
      | line s => cases hstub
      | loop origin args block =>
        obtain ⟨complete, hcomplete, hnot⟩ := of_bind_ok hstub
        obtain rfl : complete = false := by simpa using Except.ok.inj hnot
        exact ⟨origin, args, block, rfl, hcomplete⟩
  rcases b with ⟨_ | ⟨l, rest⟩, outer⟩
  · match outer, h with
    | n :: before, h =>
      obtain ⟨rfl, origin, args, block, rfl, hargs⟩ := hstub n ⟨[], toValues before⟩ h
      refine ⟨⟨[], before⟩, origin, args, block, rfl, hargs, ?_⟩
      exact entries_push ⟨[], before⟩ (.loop origin args block)
  · rcases l with ⟨level, own, ownArgs, nodes⟩
    match nodes, h with
    | n :: before, h =>
      obtain ⟨rfl, origin, args, block, rfl, hargs⟩ := hstub n
        ⟨⟨level, ownArgs, toValues before⟩ :: rest.map OpenNode.toLoop, toValues outer⟩ h
      refine ⟨⟨⟨level, own, ownArgs, before⟩ :: rest, outer⟩, origin, args, block, rfl, hargs, ?_⟩
      exact entries_push ⟨⟨level, own, ownArgs, before⟩ :: rest, outer⟩ (.loop origin args block)

variable {args : Value} {level : Int} {c : Builder}

theorem exists_entries_of_addHeader (origin : α) (h : b.toBuilder.addHeader level args = .ok c) :
    ∃ (b' : Nest α) (before stub after : List (Entry α)), c = b'.toBuilder ∧
      b.entries = before ++ (stub ++ after) ∧ b'.entries = before ++ .loop origin args :: after ∧
      (stub = [] ∧ after = [] ∨
        ∃ own args, stub = [.loop own args] ∧ Builder.isComplete args = .ok false) := by
  obtain ⟨found, hfound, h⟩ := of_bind_ok h
  rw [← toBuilder_leave] at hfound h
  cases found with
  | none =>
    refine ⟨(b.leave (level - 1)).openLoop level origin args, b.entries, [], [],
      (Except.ok.inj h).symm, (append_nil _).symm, ?_, .inl ⟨rfl, rfl⟩⟩
    rw [entries_openLoop, entries_leave]
  | some r =>
    obtain ⟨b', own, ownArgs, block, rfl, hown, hlist⟩ := exists_of_takeStub hfound
    refine ⟨⟨⟨level, origin, args, block.reverse⟩ :: b'.loops, b'.outer⟩, b'.entries,
      [.loop own ownArgs], entriesOf block, ?_, ?_, ?_, .inr ⟨own, ownArgs, rfl, hown⟩⟩
    · have hopen : OpenNode.toLoop ⟨level, origin, args, block.reverse⟩
          = ⟨level, args, (toValues block).reverse⟩ := by
        rw [OpenNode.toLoop, toValues_reverse]
      exact (Except.ok.inj h).symm.trans
        (congrArg (fun l => Builder.mk (l :: b'.toBuilder.loops) b'.toBuilder.outer) hopen.symm)
    · rw [← entries_leave b (level - 1), hlist]
      rfl
    · rw [entries, openEntries, reverse_reverse, ← append_assoc]
      rfl

theorem exists_of_addHeader (origin : α) (h : b.toBuilder.addHeader level args = .ok c) :
    ∃ b' : Nest α, c = b'.toBuilder ∧ statements b'.entries = statements b.entries := by
  obtain ⟨b', before, stub, after, hc, hlist, hlist', hcase⟩ := exists_entries_of_addHeader origin h
  have hstub : statements stub = [] := by
    rcases hcase with ⟨rfl, _⟩ | ⟨_, _, rfl, _⟩ <;> rfl
  refine ⟨b', hc, ?_⟩
  rw [hlist, hlist', statements_append, statements_append, statements_append, statements_loop,
    hstub, nil_append]

end Nest

end Loom.Flow
