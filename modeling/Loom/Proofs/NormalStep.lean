import Loom.Proofs.Law
import Loom.Proofs.Text

/-!
# The Normal Form of a Step

A step is brought to one spelling before it runs: its verb is one that runs, and its arguments
have the names that this verb reads. A step that is spelled so is left as it is. So nothing but
this form and the lineage of a step counts in a run.

Each name is looked for among several, and the first that is found is moved or copied to its
place. Afterwards the name is there, or none of the others is, and later names are looked for
among others, so that this stays.
-/

namespace Loom

open Text Value Fields

namespace Fields

variable {α : Type} {fs : Fields α} {name : String}

theorem get?_put (fs : Fields α) (name other : String) (a : α) :
    (fs.put name a).get? other = if name = other then some a else fs.get? other := by
  split
  · rw [← ‹name = other›, get?_put_self]
  · rw [get?_put_of_ne _ ‹_›]

theorem get?_erase (fs : Fields α) (name other : String) :
    (fs.erase name).get? other = if name = other then none else fs.get? other := by
  split
  · rw [← ‹name = other›, get?_erase_self]
  · rw [get?_erase_of_ne _ ‹_›]

end Fields

namespace Step

variable {new name : String} {old : List String} {args : Fields Value} {v w : Value}

def Settled (new : String) (old : List String) (args : Fields Value) : Prop :=
  args.has new = true ∨ ∀ k ∈ old, args.has k = false

theorem Settled.of_get?_eq {other : Fields Value} (h : Settled new old args)
    (hsame : ∀ k ∈ new :: old, other.get? k = args.get? k) : Settled new old other := by
  simp only [Settled, has] at *
  grind

theorem settled_renameFirst (new : String) (old : List String) (args : Fields Value) :
    Settled new old (renameFirst new old args) := by
  simp only [Settled, renameFirst, Fields.move, has]
  grind [get?_put, has, List.find?_eq_none]

theorem renameFirst_of_settled (h : Settled new old args) : renameFirst new old args = args := by
  simp only [Settled, renameFirst] at *
  grind [List.find?_eq_none]

theorem get?_renameFirst (h : name ∉ new :: old) (args : Fields Value) :
    (renameFirst new old args).get? name = args.get? name := by
  simp only [renameFirst, Fields.move]
  grind [get?_put, get?_erase, List.mem_of_find?_eq_some]

theorem settled_iteratorArgs (args : Fields Value) :
    Settled "iterator" ["iter", "var", "it"] (iteratorArgs args) := by
  simp only [Settled, iteratorArgs, Fields.move, has]
  grind [get?_put, get?_erase]

theorem iteratorArgs_of_settled (h : Settled "iterator" ["iter", "var", "it"] args) :
    iteratorArgs args = args := by
  simp only [Settled, iteratorArgs, Fields.move, has] at *
  grind

/-- There is a block, or no argument that could become one. -/
def HasBlock (args : Fields Value) : Prop := args.has "block" = true ∨
    (!args.has "steps" && args.has "body") = false ∧ (args.getD "steps" .null).isList = false

theorem blockArgs_cases (v : Value) (args : Fields Value) :
    (blockArgs v args = args ∧ HasBlock args) ∨
      ∃ gs w, gs ∈ [args, args.erase "body", args.erase "steps"] ∧
        blockArgs v args = gs.put "block" w := by
  unfold blockArgs HasBlock
  lift_lets
  intro fill args₁ steps args₂ block args₃ args₄
  grind [has, get?_put]

theorem hasBlock_blockArgs (v : Value) (args : Fields Value) : HasBlock (blockArgs v args) := by
  grind [blockArgs_cases, HasBlock, has, get?_put]

theorem get?_blockArgs_of_not_mem (v : Value) (h : name ∉ ["block", "steps", "body"])
    (args : Fields Value) : (blockArgs v args).get? name = args.get? name := by
  have hcases := blockArgs_cases v args
  grind [get?_put, get?_erase]

theorem blockArgs_of_hasBlock (hblock : v.field "block" = .null) (hsteps : v.field "steps" = .null)
    (h : HasBlock args) : blockArgs v args = args := by
  unfold blockArgs HasBlock at *
  grind [isObj, isList]

/-! ### Arguments in their one spelling -/

theorem makeArgs_again (args : Fields Value) : makeArgs (makeArgs args) = makeArgs args := by
  have hname : Settled _ _ (makeArgs args) :=
    (settled_renameFirst "name" _ args).of_get?_eq fun k hk => get?_renameFirst
      ((by decide : ∀ k ∈ ["name", "target", "var", "id", "key", "binding", "lhs"],
        k ∉ ["expr", "value", "to", "rhs", "with", "is", "equals"]) k hk) _
  rw [makeArgs, renameFirst_of_settled hname]
  exact renameFirst_of_settled (settled_renameFirst _ _ _)

theorem showArgs_again (args : Fields Value) : showArgs (showArgs args) = showArgs args := by
  unfold showArgs
  grind [has, get?_put]

theorem askArgs_again (args : Fields Value) : askArgs (askArgs args) = askArgs args := by
  have hstore : Settled _ _ (askArgs args) := settled_renameFirst _ _ _
  have htext : (askArgs args).get? "text" = none → (askArgs args).get? "prompt" = none := by
    simp only [askArgs]
    rw [get?_renameFirst (by decide), get?_renameFirst (by decide)]
    cases htext : args.get? "text" <;> cases hprompt : args.get? "prompt" <;>
      grind [get?_put]
  generalize askArgs args = gs at htext hstore
  unfold askArgs
  grind [renameFirst_of_settled]

theorem repeatArgs_again (hblock : w.field "block" = .null) (hsteps : w.field "steps" = .null)
    (v : Value) (args : Fields Value) : repeatArgs w (repeatArgs v args) = repeatArgs v args := by
  have hiterable : Settled _ _ (repeatArgs v args) :=
    (settled_renameFirst "iterable" ["in"] _).of_get?_eq fun k hk => get?_blockArgs_of_not_mem v
      ((by decide : ∀ k ∈ ["iterable", "in"], k ∉ ["block", "steps", "body"]) k hk) _
  have hiterator : Settled _ _ (repeatArgs v args) :=
    (settled_iteratorArgs args).of_get?_eq fun k hk => by
      obtain ⟨hblock, hin⟩ := (by decide : ∀ k ∈ ["iterator", "iter", "var", "it"],
        k ∉ ["block", "steps", "body"] ∧ k ∉ ["iterable", "in"]) k hk
      exact (get?_blockArgs_of_not_mem v hblock _).trans (get?_renameFirst hin _)
  rw [repeatArgs, iteratorArgs_of_settled hiterator, renameFirst_of_settled hiterable]
  exact blockArgs_of_hasBlock hblock hsteps (hasBlock_blockArgs _ _)

theorem canonicalArgs_again (verb : String)
    (hw : ∀ name ∈ ["branches", "block", "steps"], w.field name = .null) (v : Value)
    (args : Fields Value) :
    canonicalArgs verb w (canonicalArgs verb v args) = canonicalArgs verb v args := by
  obtain ⟨hbranches, hblock, hsteps⟩ : w.field "branches" = .null ∧ w.field "block" = .null ∧
      w.field "steps" = .null := ⟨hw _ (by decide), hw _ (by decide), hw _ (by decide)⟩
  unfold canonicalArgs
  split
  · exact makeArgs_again args
  · exact showArgs_again args
  · exact askArgs_again args
  · rw [chooseArgs, hbranches]
    simp [isList]
  · exact repeatArgs_again hblock hsteps v args
  · exact renameFirst_of_settled (settled_renameFirst _ _ _)
  · split
    case h_7 => rfl
    all_goals contradiction

/-! ### Reading a normal form -/

theorem canonicalVerb_again (raw : String) :
    strip (canonicalVerb (strip raw)) = canonicalVerb (strip raw) ∧
      canonicalVerb (canonicalVerb (strip raw)) = canonicalVerb (strip raw) := by
  cases hget : verbAliases.get? (lower (strip raw)) with
  | none =>
    have hsame : canonicalVerb (strip raw) = strip raw := by
      rw [canonicalVerb, getD, hget, Option.getD_none]
    rw [hsame, hsame, strip_strip]
    exact ⟨rfl, rfl⟩
  | some verb =>
    have hverb : canonicalVerb (strip raw) = verb := by
      rw [canonicalVerb, getD, hget, Option.getD_some]
    have hall : ∀ f ∈ verbAliases, strip f.2 = f.2 ∧ canonicalVerb f.2 = f.2 := by
      decide +kernel
    rw [hverb]
    exact hall (lower (strip raw), verb) (mem_of_get? hget)

theorem ofValue_of_fixed {fs : Fields Value} {verb : String}
    (hverb : fs.get? "verb" = some (.str verb)) (hargs : fs.get? "args" = some (.obj args))
    (hstrip : strip verb = verb) (hcanonical : canonicalVerb verb = verb)
    (hsame : canonicalArgs verb (.obj fs) args = args) :
    ofValue (.obj fs) = .ok ⟨verb, args, verb⟩ := by
  have htext : (str verb).orElse (.str "") = .str verb := by
    unfold orElse truthy
    by_cases hempty : verb = ""
    · rw [hempty]
      rfl
    · rw [if_pos (by simpa using hempty)]
  have hfields : (obj args).toFieldsOrNone = .ok args := by
    cases args <;> rfl
  simp only [ofValue, lookup, lookup?, hverb, Except.map, field, field?,
    hargs, Option.getD_some, bind, Except.bind, htext, toText, hfields, hstrip, hcanonical,
    hsame]
  rfl

theorem ofValue_of_normal {st : Step} {fs : Fields Value} (h : ofValue v = .ok st)
    (hverb : fs.get? "verb" = some (.str st.verb)) (hargs : fs.get? "args" = some (.obj st.args))
    (hothers : ∀ name ∈ ["branches", "block", "steps"], (Value.obj fs).field name = .null) :
    ofValue (.obj fs) = .ok ⟨st.verb, st.args, st.verb⟩ := by
  obtain ⟨_, _, h⟩ := of_bind_ok h
  obtain ⟨text, _, h⟩ := of_bind_ok h
  obtain ⟨args, _, h⟩ := of_bind_ok h
  obtain ⟨hstrip, hcanonical⟩ := canonicalVerb_again text
  have hsame := canonicalArgs_again (canonicalVerb (strip text)) hothers v args
  rw [← Except.ok.inj h] at hverb hargs ⊢
  dsimp only at hverb hargs ⊢
  exact ofValue_of_fixed hverb hargs hstrip hcanonical hsame

def normal (st : Step) (l : Lineage) : Value :=
  .obj (("verb", .str st.verb) :: ("args", .obj st.args) :: l.fields)

theorem orVerb_ofStep (hverb : (v.field "verb").isNull = false) (verb : Value) :
    (Lineage.ofStep v).orVerb verb = Lineage.ofStep v := by
  have hfilled (u : Value) {other : Value} (hother : other.isNull = false) :
      (if u.isNull then other else u).isNull = false := by
    split
    · exact hother
    · exact Bool.eq_false_iff.mpr ‹_›
  simp only [Lineage.ofStep, Lineage.orVerb, hfilled _ hverb,
    hfilled _ (rfl : (str "n/a").isNull = false), Bool.false_eq_true, if_false]

theorem verb_of_isNull {st : Step} (h : ofValue v = .ok st)
    (hverb : (v.field "verb").isNull) : st.verb = "" := by
  obtain ⟨_, hfound, h⟩ := of_bind_ok h
  obtain ⟨_, rfl⟩ := Overlay.exists_of_lookup hfound
  obtain ⟨text, htext, h⟩ := of_bind_ok h
  obtain ⟨args, _, h⟩ := of_bind_ok h
  cases hnull : v.field "verb" with
  | null =>
    rw [hnull] at htext
    obtain rfl : "" = text := Except.ok.inj htext
    cases h
    change canonicalVerb (strip "") = ""
    decide +kernel
  | _ =>
    rw [hnull] at hverb
    cases hverb

end Step

namespace Run

open Session Law

variable {v w : Value} {st : Step}

theorem run_step_congr {raw : String} (hv : Step.ofValue v = .ok st)
    (hw : Step.ofValue w = .ok ⟨st.verb, st.args, raw⟩)
    (hlineage : st.verb = "" ∨ Lineage.ofStep w = Lineage.ofStep v)
    (take : Value → Run Outcome) (run : Value → Fields Value → Run Value) (s : Session) :
    s.run (step take run w) = s.run (step take run v) := by
  rw [step, step, run_bind, run_bind, run_liftExcept, run_liftExcept, hv, hw]
  dsimp only
  split
  case h_4 => rfl
  case h_6 => rfl
  case h_8 => rfl
  all_goals
    rename_i hverb
    rw [hlineage.resolve_left (by rw [hverb]; decide)]
    rfl

/-- Normalizing is idempotent, and nothing but the normal form of a step and its lineage counts
    in a run. -/
theorem step_is_normal (h : Step.ofValue v = .ok st) :
    (∃ raw, Step.ofValue (.obj [("verb", .str st.verb), ("args", .obj st.args)]) =
      .ok ⟨st.verb, st.args, raw⟩) ∧ ∀ (depth : Nat) (s : Session),
      s.run (takeStep depth (st.normal (Lineage.ofStep v))) = s.run (takeStep depth v) := by
  have hothers : ∀ name ∈ ["branches", "block", "steps"],
      (obj [("verb", .str st.verb), ("args", .obj st.args)]).field name = .null ∧
        (st.normal (Lineage.ofStep v)).field name = .null := by
    simp only [List.forall_mem_cons]
    exact ⟨⟨rfl, rfl⟩, ⟨rfl, rfl⟩, ⟨rfl, rfl⟩, List.forall_mem_nil _⟩
  refine ⟨⟨st.verb, Step.ofValue_of_normal h rfl rfl fun name hname => (hothers name hname).1⟩,
    fun depth s => ?_⟩
  cases depth with
  | zero => rfl
  | succ depth =>
    refine run_step_congr h (Step.ofValue_of_normal h rfl rfl fun name hname =>
      (hothers name hname).2) ?_ _ _ s
    cases hverb : (v.field "verb").isNull with
    | true => exact .inl (Step.verb_of_isNull h hverb)
    | false => exact .inr (Step.orVerb_ofStep hverb _)

/-- A loop under another name, with its block beside the arguments. -/
theorem step_is_normal_loop :
    let shown : Value := .obj [("verb", .str "print"), ("args", .obj [("value", .int 7)])]
    let v : Value := .obj [("verb", .str " forEach"), ("args", .obj [("var", .str "i"),
      ("in", .list [.int 1])]), ("block", .list [shown])]
    let st : Step := ⟨"Repeat", [("iterator", .str "i"), ("iterable", .list [.int 1]),
      ("block", .obj [("steps", .list [shown])])], "forEach"⟩
    Step.ofValue v = .ok st ∧ ∀ (depth : Nat) (s : Session),
      s.run (takeStep depth (st.normal (Lineage.ofStep v))) = s.run (takeStep depth v) := by
  intro shown v st
  have hv : Step.ofValue v = .ok st := by rfl
  exact ⟨hv, (step_is_normal hv).2⟩

end Run

end Loom
