import Loom.Proofs.Choice
import Loom.Proofs.Frame

/-!
# The Order of a Receipt

A step leaves its entry when it is taken, so a receipt tells steps in their order, with one
exception: a branch that is taken otherwise is noted after its steps. A `Return` ends the steps
around it, and the last entry is its own unless it stands in such branches. Then their entries
follow, from the inside out.

What a computation leaves behind is only ever added to what was there, by the law that a run does
not look at its past. So it is enough to follow the steps that lead to the `Return`.
-/

namespace Loom.Run

open Session Law Overlay List

variable {α : Type} {s t : Session} {v w b : Value} {st : Step} {es xs : List Value}
  {P Q : Value → List Value → Prop} {c d : Run Outcome} {depth : Nat} {lineage : Lineage}

/-- The entry of a `Return` with its value. -/
def returnEntry (w r : Value) : Value := .obj ((Lineage.ofStep w).mark
    [("event", .str "return"), ("value", r), ("verb", .str "Return")])

/-- A `Return` stands in a step, and the branches around it that are taken otherwise have
    entries. -/
inductive Under : Value → Value → List Value → Prop
  | here {v : Value} {st : Step} (hv : Step.ofValue v = .ok st) (hverb : st.verb = "Return") :
      Under v v []
  | block {v x w : Value} {st : Step} {xs es : List Value} (hv : Step.ofValue v = .ok st)
      (hverb : st.verb = "Repeat") (hxs : stepsIn (st.arg "block") = .ok xs) (hx : x ∈ xs)
      (h : Under x w es) : Under v w es
  | branch {v x w b : Value} {st : Step} {before after xs es : List Value}
      (hv : Step.ofValue v = .ok st) (hverb : st.verb = "Choose")
      (hbs : ((st.arg "branches").orElse (.list [])).items = .ok (before ++ b :: after))
      (hxs : stepsIn b = .ok xs) (hx : x ∈ xs) (h : Under x w es) :
      Under v w (if (b.field? "when").isSome then es
        else es ++ [otherwiseEntry (Lineage.ofStep v) before.length])

theorem Under.event (h : Under v w es) : ∀ e ∈ es, e.field "event" = .str "choose" := by
  induction h with
  | here => exact fun e he => absurd he not_mem_nil
  | block _ _ _ _ _ ih => exact ih
  | branch _ _ _ _ _ _ ih =>
    split
    · exact ih
    · intro e he
      rcases mem_append.mp he with he | he
      · exact ih e he
      · obtain rfl := mem_singleton.mp he
        exact Lineage.field_mark _ _ (by decide)

/-! ### What is left behind -/

/-- A computation adds entries and takes none away. -/
def Adds (c : Run α) : Prop :=
  ∀ s : Session, ∃ new, (s.run c).2.receipt.steps = s.receipt.steps ++ new

/-- If a computation returns, the entry of the `Return` has only some entries after it. -/
def Ends (P : Value → List Value → Prop) (c : Run Outcome) : Prop :=
  ∀ (s t : Session) (r : Value), s.run c = (.ok (some r), t) → ∃ w es pre, P w es ∧
    t.receipt.steps = s.receipt.steps ++ pre ++ returnEntry w r :: es

theorem adds_of_governs {c : Run α} (h : ∀ past settings, (staying past settings).Governs c) :
    Adds c := by
  intro s
  obtain ⟨new, hnew, _⟩ := exists_added (fun past s => (h past s.settings s rfl).1) s
  exact ⟨new, hnew⟩

theorem adds_takeStep (depth : Nat) (v : Value) : Adds (takeStep depth v) :=
  adds_of_governs fun past settings => governs_staying past settings depth v

theorem adds_block (depth : Nat) (b : Value) : Adds (block (takeStep depth) b) :=
  adds_of_governs fun past settings => relates_block fun _ _ v _ =>
    governs_staying past settings depth v

theorem Ends.mono (h : Ends P c) (hPQ : ∀ w es, P w es → Q w es) : Ends Q c := by
  intro s t r hrun
  obtain ⟨w, es, pre, hP, hsteps⟩ := h s t r hrun
  exact ⟨w, es, pre, hPQ w es hP, hsteps⟩

theorem ends_of_returnsIf (h : ReturnsIf False c) : Ends P c :=
  fun s t r hrun => (h s t r hrun).elim

theorem ends_bind {c : Run α} {f : α → Run Outcome} (hc : Adds c) (hf : ∀ a, Ends P (f a)) :
    Ends P (c >>= f) := by
  intro s t r hrun
  obtain ⟨a, u, hu, hrun⟩ := exists_of_run_bind hrun
  obtain ⟨new, hnew⟩ := hc s
  rw [hu] at hnew
  obtain ⟨w, es, pre, hP, hsteps⟩ := hf a u t r hrun
  rw [hnew, append_assoc s.receipt.steps] at hsteps
  exact ⟨w, es, new ++ pre, hP, hsteps⟩

theorem ends_lift {x : Except Error α} {f : α → Run Outcome} (hf : ∀ a, x = .ok a → Ends P (f a)) :
    Ends P (liftExcept x >>= f) := by
  cases x with
  | error e => exact fun s t r hrun => nomatch (Prod.mk.inj hrun).1
  | ok a => exact hf a rfl

theorem ends_andThen (hadds : Adds c) (hc : Ends P c) (hd : Ends P d) : Ends P (andThen c d) := by
  intro s t r hrun
  obtain ⟨_, hrun⟩ | ⟨u, hfirst, hrun⟩ := exists_of_run_andThen hrun
  · exact hc s t r hrun
  · obtain ⟨new, hnew⟩ := hadds s
    rw [hfirst] at hnew
    obtain ⟨w, es, pre, hP, hsteps⟩ := hd u t r hrun
    rw [hnew, append_assoc s.receipt.steps] at hsteps
    exact ⟨w, es, new ++ pre, hP, hsteps⟩

/-! ### Steps inside steps -/

theorem ends_block (h : ∀ xs, stepsIn b = .ok xs → ∀ x ∈ xs, Ends P (takeStep depth x)) :
    Ends P (block (takeStep depth) b) := by
  refine ends_lift fun inner hinner => ?_
  obtain ⟨_, rfl⟩ := exists_of_lookup hinner
  refine ends_lift fun xs hxs => ?_
  have hall := h xs hxs
  clear hxs
  induction xs with
  | nil => exact ends_of_returnsIf returnsIf_none
  | cons x xs ih =>
    obtain ⟨hx, hrest⟩ := forall_mem_cons.mp hall
    rw [steps_cons]
    exact ends_andThen (adds_takeStep depth x) hx (ih hrest)

theorem ends_branchBlock (h : ∀ xs, stepsIn b = .ok xs → ∀ x ∈ xs, Ends P (takeStep depth x)) :
    Ends P (branchBlock (takeStep depth) b) := by
  refine ends_block fun xs hxs => h xs ?_
  change (((b.field "steps").orElse (.list [])).orElse (.list [])).items = .ok xs at hxs
  rwa [orElse_orElse] at hxs

theorem ends_round {f : Run Outcome} (iterator v : Value)
    (h : Ends P (block (takeStep depth) b)) (hf : Ends P f) :
    Ends P (do bindIterator iterator v; andThen (block (takeStep depth) b) f) :=
  ends_bind (adds_of_governs fun _ _ => governs_bindIterator (fun _ => trivial) iterator v)
    fun _ => ends_andThen (adds_block depth b) h hf

theorem ends_repeatStep
    (h : ∀ xs, stepsIn (st.arg "block") = .ok xs → ∀ x ∈ xs, Ends P (takeStep depth x)) :
    Ends P (repeatStep (takeStep depth) st) := by
  have hbody : Ends P (block (takeStep depth) ((st.arg "block").orElse (Step.blockOf (.list [])))) := by
    refine ends_block fun xs hxs => ?_
    unfold Value.orElse at hxs
    split at hxs
    · exact h xs hxs
    · cases hxs
      exact fun x hx => absurd hx not_mem_nil
  have hargument (v : Value) : Adds (argument v) := adds_of_governs fun _ _ => governs_argument v
  unfold repeatStep
  dsimp only
  split
  · refine ends_bind (hargument _) fun _ => ends_bind (hargument _) fun _ =>
      ends_bind (hargument _) fun _ => ?_
    split
    · rename_i span _
      generalize span.count = n
      generalize span.first = i
      induction n generalizing i with
      | zero => exact ends_of_returnsIf returnsIf_none
      | succ n ih => exact ends_round _ _ hbody (ih _)
    · exact ends_of_returnsIf (returnsIf_throw _)
  · split
    · rename_i vs hvs
      clear hvs
      induction vs with
      | nil => exact ends_of_returnsIf returnsIf_none
      | cons v vs ih => exact ends_round _ _ hbody ih
    · exact ends_of_returnsIf returnsIf_none

theorem ends_otherwise {index : Nat} (h : Ends P c)
    (hQ : ∀ w es, P w es → Q w (es ++ [otherwiseEntry lineage index])) :
    Ends Q (do
      let out ← c
      record lineage [("event", .str "choose"), ("predicateTrace", .list []),
        ("selected", selection index "otherwise"), ("verb", .str "Choose")]
      pure out) := by
  intro s t r hrun
  obtain ⟨out, u, hu, hrun⟩ := exists_of_run_bind hrun
  cases hrun
  obtain ⟨w, es, pre, hP, hsteps⟩ := h s u r hu
  refine ⟨w, _, pre, hQ w es hP, ?_⟩
  change u.receipt.steps ++ [otherwiseEntry lineage index] = _
  rw [hsteps, append_assoc]
  rfl

theorem isSome_when {guarded : Bool} {name : String} {c : Value}
    (hguarded : b.hasMember "when" = .ok guarded) (hc : b.lookup name = .ok c) :
    (b.field? "when").isSome = guarded := by
  cases b with
  | obj fs => exact Except.ok.inj hguarded
  | _ => cases hc

theorem ends_branches {bs : List Value} (index : Nat)
    (h : ∀ before b after, bs = before ++ b :: after → ∀ xs, stepsIn b = .ok xs → ∀ x ∈ xs,
      Ends (fun w es => Q w (if (b.field? "when").isSome then es
        else es ++ [otherwiseEntry lineage (index + before.length)])) (takeStep depth x)) :
    Ends Q (branches (takeStep depth) lineage index bs) := by
  induction bs generalizing index with
  | nil => exact ends_of_returnsIf returnsIf_none
  | cons b rest ih =>
    have hb := ends_branchBlock (h [] b rest rfl)
    have hrest : Ends Q (branches (takeStep depth) lineage (index + 1) rest) := by
      refine ih (index + 1) fun before b' after hrest => ?_
      rw [Nat.add_assoc, Nat.add_comm 1]
      exact h (b :: before) b' after (congrArg (b :: ·) hrest)
    have hrecord (entry : Fields Value) : Adds (record lineage entry) := fun s => ⟨_, rfl⟩
    refine ends_lift fun guarded hguarded => ?_
    cases guarded with
    | true =>
      refine ends_lift fun condition hcondition => ?_
      refine ends_bind (adds_of_governs fun _ _ => governs_evaluate condition) fun v => ?_
      split
      · rw [isSome_when hguarded hcondition] at hb
        exact ends_bind (hrecord _) fun _ => hb
      · exact ends_bind (hrecord _) fun _ => hrest
    | false =>
      refine ends_lift fun otherwise hotherwise => ?_
      split
      · rw [isSome_when hguarded hotherwise] at hb
        exact ends_otherwise hb fun _ _ hQ => hQ
      · exact hrest

theorem ends_takeStep (depth : Nat) (v : Value) : Ends (Under v) (takeStep depth v) := by
  induction depth generalizing v with
  | zero => exact ends_of_returnsIf (returnsIf_throw _)
  | succ depth ih =>
    rw [takeStep_succ]
    refine ends_lift fun st hv => ?_
    split
    · exact ends_of_returnsIf (returnsIf_makeStep _ _)
    · exact ends_of_returnsIf (returnsIf_showStep _ _)
    · rename_i hverb
      refine ends_bind (adds_of_governs fun _ _ => governs_argument _) fun r s t r' hrun => ?_
      cases hrun
      exact ⟨v, [], [], .here hv hverb, by rw [append_nil]; rfl⟩
    · exact ends_of_returnsIf (returnsIf_askStep _)
    · rename_i hverb
      refine ends_lift fun bs hbs => ends_branches 0 ?_
      rintro before b after rfl xs hxs x hx
      rw [Nat.zero_add]
      exact (ih x).mono fun w es h => .branch hv hverb hbs hxs hx h
    · rename_i hverb
      exact ends_repeatStep fun xs hxs x hx => (ih x).mono fun w es h => .block hv hverb hxs hx h
    · exact ends_of_returnsIf (returnsIf_anyCall _ _ _)
    · exact ends_of_returnsIf (returnsIf_throw _)

/-! ### Runs -/

theorem getLast?_eq_iff (h : Under v w es) (pre : List Value) (r : Value) :
    (pre ++ returnEntry w r :: es).getLast? = some (returnEntry w r) ↔ es = [] := by
  rw [getLast?_append_of_ne_nil _ (cons_ne_nil _ _), getLast?_cons]
  cases hlast : es.getLast? with
  | none => exact iff_of_true rfl (getLast?_eq_none_iff.mp hlast)
  | some e =>
    have he := h.event e (mem_of_getLast? hlast)
    refine iff_of_false (fun heq => ?_) fun hnil => ?_
    · cases heq
      have hreturn : (returnEntry w r).field "event" = .str "return" :=
        Lineage.field_mark _ _ (by decide)
      exact absurd (Value.str.inj (hreturn.symm.trans he)) (by decide)
    · rw [hnil] at hlast
      cases hlast

/-- The entry of a branch comes before those of its steps if it has a condition, and after them if
    it is taken otherwise. So in a run that ends through a `Return` the entries after that of the
    `Return` are those of the branches around it that are taken otherwise, and it is the last one
    only if there are none. -/
theorem receipt_order (depth : Nat) :
    (∀ (s u : Session) (v b : Value) (st : Step) (before after : List Value) (kind : String)
      (r : Outcome), Step.ofValue v = .ok st → st.verb = "Choose" →
      ((st.arg "branches").orElse (.list [])).items = .ok (before ++ b :: after) →
      (∀ p ∈ before, Passes s p) → Picks s b kind →
      s.run (branchBlock (takeStep depth) b) = (.ok r, u) →
      ∃ new, u.receipt.steps = s.receipt.steps ++ new ∧
        (s.run (takeStep (depth + 1) v)).2.receipt.steps =
          s.receipt.steps ++ tried (Lineage.ofStep v) before ++ (b.field? "when").elim
            (new ++ [otherwiseEntry (Lineage.ofStep v) before.length]) fun c =>
              conditionEntry (Lineage.ofStep v) c true (selection before.length "when") :: new) ∧
    ∀ (s u : Session) (m r : Value) (inputs : Env),
      (begun s inputs).run (takeFlow depth m) = (.ok (some r), u) →
      ∃ t flow xs v w es pre, s.run (moduleWith (takeStep depth) m inputs) = (.ok r, t) ∧
        flowOf m = .ok flow ∧ stepsIn (Step.blockOf flow) = .ok xs ∧ v ∈ xs ∧ Under v w es ∧
        t.receipt.steps = pre ++ returnEntry w r :: es ∧
        (t.receipt.steps.getLast? = some (returnEntry w r) ↔ es = []) := by
  refine ⟨fun s u v b st before after kind r hv hverb hbs hbefore hpick hrun => ?_,
    fun s u m r inputs hrun => ?_⟩
  · rw [takeStep_succ, run_step_choose s hv hverb hbs, run_branches_passed hbefore, Nat.zero_add]
    obtain ⟨new, hnew, htaken⟩ := run_branches_taken hpick hrun
      (tried (Lineage.ofStep v) before) before.length after
    exact ⟨new, hnew, congrArg (·.2.receipt.steps) htaken⟩
  · have hends : Ends (fun w es => ∃ flow xs v, flowOf m = .ok flow ∧
        stepsIn (Step.blockOf flow) = .ok xs ∧ v ∈ xs ∧ Under v w es) (takeFlow depth m) :=
      ends_lift fun flow hflow => ends_block fun xs hxs v hv =>
        (ends_takeStep depth v).mono fun w es h => ⟨flow, xs, v, hflow, hxs, hv, h⟩
    obtain ⟨w, es, pre, ⟨flow, xs, v, hflow, hxs, hv, h⟩, hsteps⟩ := hends _ _ _ hrun
    have hfinish : s.run (moduleWith (takeStep depth) m inputs) =
        (.ok r, { u with receipt := { u.receipt with env := u.env } }) := by
      rw [run_moduleWith_eq_finish, hrun]
      rfl
    have hsteps' : u.receipt.steps = pre ++ returnEntry w r :: es := hsteps
    refine ⟨_, flow, xs, v, w, es, pre, hfinish, hflow, hxs, hv, h, hsteps', ?_⟩
    change u.receipt.steps.getLast? = _ ↔ _
    rw [hsteps']
    exact getLast?_eq_iff h pre r

/-- A `Return` in a branch that is taken otherwise does not have the last entry. -/
theorem receipt_order_otherwise :
    let back : Value := .obj [("verb", .str "Return"), ("args", .obj [("expr", .int 1)])]
    let branch : Value := .obj [("otherwise", .bool true), ("steps", .list [back])]
    let v : Value := .obj [("verb", .str "Choose"), ("args", .obj [("branches", .list [branch])])]
    let m : Value := .obj [("flow", .list [v])]
    ∃ t, (Session.start .null false [] []).run (moduleWith (takeStep 2) m []) = (.ok (.int 1), t) ∧
      t.receipt.steps = [returnEntry back (.int 1), otherwiseEntry (Lineage.ofStep v) 0] := by
  intro back branch v m
  let s := Session.start .null false [] []
  have hrun : (begun s []).run (takeFlow 2 m) =
      (.ok (some (.int 1)), ((begun s []).run (takeFlow 2 m)).2) := by rfl
  obtain ⟨t, _, _, _, _, _, _, ht, _⟩ := (receipt_order 2).2 s _ m (.int 1) [] hrun
  exact ⟨t, ht, (congrArg (·.2.receipt.steps) ht).symm.trans (by rfl)⟩

end Loom.Run
