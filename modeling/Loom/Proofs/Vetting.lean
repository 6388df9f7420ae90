import Loom.Proofs.Places

/-!
# Steps That Were Vetted

If unknown verbs are refused, every step that expansion gives has a verb that runs, and so
has every step inside it, as far as expansion looks. A step is `Vetted` if this holds of
it and, but for stray lists, of all that running it may take.

The lists that a step holds after expansion are those that expansion gave. With the
comparison of places this carries the property from each depth to the next.
-/

namespace Loom

open Value

variable {f : Expander} {v : Value} {steps xs : List Value}

namespace Overlay

/-! ### What a step holds after expansion -/

def Gave (f : Expander) (xs : List Value) : Prop := ∃ ys warnings, f ys = .ok (xs, warnings)

variable {r : Warned (List Value)}

/-! ### Vetted steps -/

/-- A step that has a verb that runs, as has every step inside it that is not stray. -/
inductive Vetted : Value → Prop
  | mk {v : Value} (hverb : ∀ s, Step.ofValue v = .ok s → s.verb ∈ canonicalVerbs)
      (hinside : ∀ xs, Takes v xs → ¬Stray v xs → ∀ t ∈ xs, Vetted t) : Vetted v

theorem vetted_of_not_isObj (h : v.isObj = false) : Vetted v := by
  have hread : ∀ s, Step.ofValue v ≠ .ok s := by
    cases v with
    | obj fs => cases h
    | _ => exact fun s h => nomatch h
  refine .mk (fun s hs => absurd hs (hread s)) fun xs hxs => ?_
  cases hxs with
  | branch hs | block hs => exact absurd hs (hread _)

variable {options : Options} {table : Table}

/-- Expansion gives vetted steps. The induction is on the depth: what a step takes is stray,
    or was given one level further down. -/
theorem vetted_expandList (hoption : options.noUnknownVerbs) {depth : Nat}
    (h : expandList table options depth steps = .ok r) : ∀ t ∈ r.1, Vetted t := by
  induction depth generalizing steps r with
  | zero => cases h
  | succ depth ih =>
    obtain ⟨e, he, h⟩ := of_bind_ok h
    obtain ⟨inner, hinner, h⟩ := of_bind_ok h
    cases h
    intro t ht
    obtain ⟨v, hv, warnings, hin⟩ := exists_of_expandEach hinner t ht
    obtain ⟨hobj, ⟨as, has⟩, hknown⟩ := ready_of_expandSteps he v hv
    obtain ⟨verb, hmem, hverb⟩ := hknown.resolve_right fun h =>
      Bool.false_ne_true (h.2.2.symm.trans hoption)
    obtain ⟨_, hverb', ⟨fs, hargs⟩, hfilled, hnone⟩ := filled_of_expandInside
      (p := Gave (expandList table options depth)) (fun ys s h => ⟨ys, s.2, h⟩) hobj
      (by rw [argsOf_eq has]; rfl) hin
    rw [hverb] at hverb'
    refine .mk (fun s hs => ?_) fun xs hxs hstray => ?_
    · rw [(ofValue_eq hverb' hmem hargs hs).1]
      exact hmem
    · rcases takes_cases hverb' hmem hargs hxs with rfl | hxs | hxs
      · exact fun _ h => absurd h List.not_mem_nil
      · obtain ⟨ys, _, hys⟩ := hfilled.of_holds hnone hxs
        exact ih hys
      · exact absurd hxs hstray

/-! ### Modules -/

def Starts (m : Value) (xs : List Value) : Prop :=
  ∃ flow, Run.flowOf m = .ok flow ∧ stepsIn (Step.blockOf flow) = .ok xs

inductive StrayIn (m : Value) : List Value → Prop
  /-- Steps of a module that has a flow, but one that counts as absent. -/
  | steps {xs : List Value} (hflow : m.hasField "flow")
      (hempty : (m.field "flow").truthy = false) (hxs : m.field "steps" = .list xs) : StrayIn m xs
  /-- Steps in a block, in place of a flow. -/
  | block {xs : List Value} (hflow : (m.field "flow").truthy = false)
      (hsteps : (m.field "steps").truthy = false) (hxs : stepsIn (m.field "block") = .ok xs) :
      StrayIn m xs

theorem starts_cases {m : Value} (h : Starts m xs) :
    ((m.field "flow").truthy ∧ ((m.field "flow").orElse (.list [])).items = .ok xs) ∨
      ((m.field "flow").truthy = false ∧
        ((m.field "steps").orElse (.list [])).items = .ok xs) ∨ StrayIn m xs := by
  obtain ⟨flow, hflow, hxs⟩ := h
  change (flow.orElse (.list [])).items = .ok xs at hxs
  unfold Run.flowOf at hflow
  cases hf : (m.field "flow").truthy with
  | true =>
    have hdirect : (m.field "flow").orElse (m.field "steps") = m.field "flow" := if_pos hf
    simp only [hdirect, hf, if_true] at hflow
    cases hflow
    exact .inl ⟨rfl, hxs⟩
  | false =>
    have hdirect : (m.field "flow").orElse (m.field "steps") = m.field "steps" :=
      if_neg (by simp [hf])
    simp only [hdirect] at hflow
    cases hs : (m.field "steps").truthy with
    | true =>
      rw [hs, if_pos rfl] at hflow
      cases hflow
      exact .inr (.inl ⟨rfl, hxs⟩)
    | false =>
      rw [hs, if_neg Bool.false_ne_true] at hflow
      obtain ⟨steps, hsteps, hflow⟩ := of_bind_ok hflow
      cases hflow
      obtain ⟨_, rfl⟩ := exists_of_lookup hsteps
      rw [orElse_orElse] at hxs
      -- a module without a block counts as one with an empty block
      have hfield : (m.field "block").field "steps" =
          (m.fieldD "block" (.obj [])).field "steps" := by
        unfold fieldD
        rw [Value.field.eq_def m]
        cases m.field? "block" <;> rfl
      refine .inr (.inr (.block hf hs ?_))
      rw [stepsIn, hfield]
      exact hxs

theorem eq_list_or_vetted (h : (v.orElse (.list [])).items = .ok xs) :
    v = .list xs ∨ ∀ t ∈ xs, Vetted t := by
  by_cases hlist : v = .list xs
  · exact .inl hlist
  · refine .inr fun t ht => vetted_of_not_isObj (Bool.eq_false_iff.mpr fun hobj => ?_)
    exact hlist (isObj_of_items h ht hobj)

theorem hasField_setField_self (hobj : v.isObj) (name : String) (w : Value) :
    (v.setField name w).hasField name := by
  obtain ⟨fs, rfl⟩ := exists_of_isObj hobj
  rw [setField, hasField, field?, Fields.get?_put_self, Option.isSome_some]

theorem field_of_not_hasField {name : String} (h : v.hasField name = false) :
    v.field name = .null := by
  rw [Value.field, Option.isSome_eq_false_iff.mp h |> Option.isNone_iff_eq_none.mp]
  rfl

section

variable {table : Table} {options : Options} {m m' : Value} {warnings : List String}
  (hoption : options.noUnknownVerbs)

include hoption in
theorem vetted_expandFlow (h : expandFlow table options m = .ok (m', warnings)) :
    m'.isObj ∧ m'.field "module" = m.field "module" ∧
      ∀ xs, Starts m' xs → StrayIn m' xs ∨ ∀ t ∈ xs, Vetted t := by
  unfold expandFlow at h
  -- the limit is a large number, and nothing here depends on it
  generalize depthLimit = depth at h
  obtain ⟨flow, hflow, h⟩ := of_bind_ok h
  obtain ⟨hobj, rfl⟩ := exists_of_lookup hflow
  split at h
  · rename_i steps hsteps
    obtain ⟨⟨ss, ws⟩, hss, h⟩ := of_bind_ok h
    cases h
    have hflow' := field_setField_self hobj "flow" (.list ss)
    refine ⟨by rw [isObj_setField, hobj], field_setField_of_ne _ (by decide) _, fun xs hxs => ?_⟩
    rcases starts_cases hxs with ⟨_, hxs⟩ | ⟨hempty, hxs⟩ | hxs
    · rw [hflow', items_list] at hxs
      cases hxs
      exact .inr (vetted_expandList hoption hss)
    · exact (eq_list_or_vetted hxs).imp_left (.steps (hasField_setField_self hobj _ _) hempty)
    · exact .inl hxs
  · rename_i hnot
    split at h
    · rename_i steps hsteps hnone
      obtain ⟨⟨ss, ws⟩, hss, h⟩ := of_bind_ok h
      cases h
      refine ⟨by rw [isObj_setField, hobj], field_setField_of_ne _ (by decide) _, fun xs hxs => ?_⟩
      have hflow' : ((m.setField "steps" (.list ss)).field "flow").truthy = false := by
        rw [field_setField_of_ne _ (by decide), field_of_not_hasField hnone]
        rfl
      -- there is no flow, so the run starts with the steps that were expanded
      rcases starts_cases hxs with ⟨hflow, _⟩ | ⟨_, hxs⟩ | hxs
      · rw [hflow'] at hflow
        cases hflow
      · rw [field_setField_self hobj, items_list] at hxs
        cases hxs
        exact .inr (vetted_expandList hoption hss)
      · exact .inl hxs
    · rename_i hnone
      cases h
      -- nothing was expanded: steps that are a list are beside a flow, and so stray
      refine ⟨hobj, rfl, fun xs hxs => ?_⟩
      rcases starts_cases hxs with ⟨_, hxs⟩ | ⟨hempty, hxs⟩ | hxs
      · exact .inr ((eq_list_or_vetted hxs).resolve_left (hnot xs))
      · refine (eq_list_or_vetted hxs).imp_left fun hlist => .steps ?_ hempty hlist
        exact Bool.not_eq_false _ ▸ hnone xs hlist
      · exact .inl hxs

include hoption in
theorem vetted_expandModule (h : expandModule table options m = .ok (m', warnings)) {inner : Value}
    (hinner : Run.unwrap m' = .ok inner) (hxs : Starts inner xs) :
    StrayIn inner xs ∨ ∀ t ∈ xs, Vetted t := by
  obtain ⟨w, hw, hinner⟩ := of_bind_ok hinner
  obtain ⟨_, rfl⟩ := exists_of_lookup hw
  cases hinner
  unfold expandModule at h
  split at h
  · rename_i hnull
    cases h
    cases m with
    | null => cases hw
    | _ => cases hnull
  · obtain ⟨body, hbody, h⟩ := of_bind_ok h
    obtain ⟨hobj, rfl⟩ := exists_of_lookup hbody
    split at h
    · rename_i hwrapped
      obtain ⟨⟨body', ws⟩, hbody', h⟩ := of_bind_ok h
      obtain ⟨hobj', _, hstart⟩ := vetted_expandFlow hoption hbody'
      cases h
      rw [field_setField_self hobj, if_pos hobj'] at hxs ⊢
      exact hstart xs hxs
    · rename_i hplain
      obtain ⟨_, hmodule, hstart⟩ := vetted_expandFlow hoption h
      rw [hmodule, if_neg hplain] at hxs ⊢
      exact hstart xs hxs

end

end Overlay

end Loom
