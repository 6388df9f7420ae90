import Loom.Proofs.Inside
import Loom.Session.Run

/-!
# Where Steps Are Kept

Expansion and running each have their own idea of where the steps inside a step are.
Running accepts more: branches beside the arguments of a choice, the body of a loop under
that name, and steps beside the arguments of a loop. Here the two are compared for one
and the same step, and the places that only running knows are named.
-/

namespace Loom

open Fields Value Step

variable {v : Value} {xs : List Value} {fs : Fields Value}

namespace Overlay

/-- Running a step may take a list of steps: those of a branch or those of the block. -/
inductive Takes (v : Value) : List Value → Prop
  | branch {s : Step} {bs : List Value} {b : Value} {xs : List Value}
      (hs : Step.ofValue v = .ok s) (hverb : s.verb = "Choose")
      (hbs : ((s.arg "branches").orElse (.list [])).items = .ok bs) (hb : b ∈ bs)
      (hxs : stepsIn b = .ok xs) : Takes v xs
  | block {s : Step} {xs : List Value} (hs : Step.ofValue v = .ok s) (hverb : s.verb = "Repeat")
      (hxs : stepsIn (s.arg "block") = .ok xs) : Takes v xs

/-- A list of steps where running finds it and expansion does not look. -/
inductive Stray (v : Value) : List Value → Prop
  /-- Branches beside the arguments of a choice. -/
  | branches {bs : List Value} {b : Value} {xs : List Value} (hverb : isChoice v)
      (hargs : (argsOf v).hasField "branches" = false) (hbs : v.field "branches" = .list bs)
      (hb : b ∈ bs) (hxs : stepsIn b = .ok xs) : Stray v xs
  /-- The body of a loop under that name. -/
  | body {xs : List Value} (hverb : isLoop v)
      (hblock : (argsOf v).hasField "block" = false) (hsteps : (argsOf v).hasField "steps" = false)
      (hxs : (((argsOf v).field "body").orElse (.list [])).items = .ok xs) : Stray v xs
  /-- Steps beside the arguments of a loop. -/
  | steps {xs : List Value} (hverb : isLoop v)
      (hblock : (argsOf v).hasField "block" = false)
      (hsteps : ((argsOf v).field "steps").isList = false) (hxs : v.field "steps" = .list xs) :
      Stray v xs

/-! ### Items -/

theorem orElse_orElse (v w : Value) : (v.orElse w).orElse w = v.orElse w := by
  cases h : v.truthy <;> simp [orElse, h]

theorem stepsIn_blockOf_list (xs : List Value) : stepsIn (Step.blockOf (.list xs)) = .ok xs :=
  items_list xs

theorem exists_of_isList (h : v.isList) : ∃ xs, v = .list xs := by
  cases v with
  | list xs => exact ⟨xs, rfl⟩
  | _ => cases h

theorem stepsIn_of_not_isObj (h : v.isObj = false) : stepsIn v = .ok [] := by
  cases v with
  | obj fs => cases h
  | _ => rfl

theorem isObj_of_items {x : Value} (h : (v.orElse (.list [])).items = .ok xs) (hx : x ∈ xs)
    (hobj : x.isObj) : v = .list xs := by
  have hnone {α : Type} {ys : List α} {f : α → Value} (hf : ∀ y, (f y).isObj = false)
      (hx : x ∈ ys.map f) : v = .list xs := by
    obtain ⟨y, _, rfl⟩ := List.mem_map.mp hx
    rw [hf y] at hobj
    cases hobj
  unfold orElse at h
  split at h
  · cases v with
    | list ys =>
      cases h
      rfl
    | str s | obj fs | bytes bs =>
      cases h
      exact hnone (fun _ => rfl) hx
    | _ => cases h
  · cases h
    cases hx

/-! ### A step as it runs -/

theorem canonicalVerb_eq : ∀ verb ∈ canonicalVerbs, canonicalVerb (Text.strip verb) = verb := by
  decide +kernel

theorem ofValue_eq {verb : String} {s : Step} (hverb : v.field "verb" = .str verb)
    (hmem : verb ∈ canonicalVerbs) (hargs : v.field "args" = .obj fs) (h : Step.ofValue v = .ok s) :
    s.verb = verb ∧ s.args = Step.canonicalArgs verb v fs := by
  have hne : (str verb).orElse (.str "") = .str verb :=
    if_pos ((by decide : ∀ verb ∈ canonicalVerbs, (str verb).truthy = true) verb hmem)
  have hfields : (obj fs).toFieldsOrNone = .ok fs := by
    cases fs <;> rfl
  obtain ⟨w, hw, h⟩ := of_bind_ok h
  obtain ⟨_, rfl⟩ := exists_of_lookup hw
  rw [hverb, hne] at h
  obtain ⟨text, htext, h⟩ := of_bind_ok h
  cases htext
  rw [hargs, hfields] at h
  dsimp only at h
  rw [canonicalVerb_eq verb hmem] at h
  cases h
  exact ⟨rfl, rfl⟩

theorem get?_loopNames (fs : Fields Value) {name : String}
    (hname : name ∉ ["iterator", "iter", "var", "it", "iterable", "in"]) :
    (Step.renameFirst "iterable" ["in"] (Step.iteratorArgs fs)).get? name = fs.get? name := by
  simp only [List.mem_cons, List.not_mem_nil, or_false, not_or] at hname
  obtain ⟨hiterator, hiter, hvar, hit, hiterable, hin⟩ := hname
  have hiteratorArgs : (iteratorArgs fs).get? name = fs.get? name := by
    unfold iteratorArgs
    split
    · rfl
    · dsimp only
      split
      · rw [get?_move_of_ne _ (Ne.symm hvar) (Ne.symm hiterator),
          get?_move_of_ne _ (Ne.symm hiter) (Ne.symm hiterator)]
      · rw [get?_move_of_ne _ (Ne.symm hit) (Ne.symm hiterator),
          get?_move_of_ne _ (Ne.symm hiter) (Ne.symm hiterator)]
  rw [← hiteratorArgs]
  unfold renameFirst
  split
  · rfl
  · split
    · rename_i k hk
      obtain rfl := List.mem_singleton.mp (List.mem_of_find?_eq_some hk)
      exact get?_move_of_ne _ (Ne.symm hin) (Ne.symm hiterable)
    · rfl

theorem get?_blockArgs (v : Value) (fs : Fields Value) : (Step.blockArgs v fs).get? "block" =
      match fs.get? "block" with
      | some w => some w
      | none =>
        if fs.has "steps" = false ∧ fs.has "body" = true then
          some (Step.blockOf (fs.getD "body" .null))
        else if (fs.getD "steps" .null).isList = true then
          some (Step.blockOf (fs.getD "steps" .null))
        else if (v.field "block").isObj = true then
          some (Step.blockOf ((v.field "block").fieldD "steps" (.list [])))
        else if (v.field "block").isList = true then some (Step.blockOf (v.field "block"))
        else if (v.field "steps").isList = true then some (Step.blockOf (v.field "steps"))
        else none := by
  have hhas (gs : Fields Value) (w : Value) : (gs.put "block" w).has "block" = true := by
    rw [has, get?_put_self, Option.isSome_some]
  unfold blockArgs
  cases hblock : fs.get? "block" with
  | some w =>
    have hfs : fs.has "block" := by rw [has, hblock, Option.isSome_some]
    simp only [hfs, Bool.not_true, Bool.false_and, Bool.false_eq_true, if_false]
    exact hblock
  | none =>
    have hfs : fs.has "block" = false := by rw [has, hblock, Option.isSome_none]
    have hput := fun (gs : Fields Value) w => get?_put_self gs "block" w
    -- once a place is found, the later ones are passed over
    by_cases hbody : fs.has "steps" = false ∧ fs.has "body" = true
    · simp [hfs, hbody, hhas, hput]
    · have hbody' : (!fs.has "steps" && fs.has "body") = false := by
        simpa using hbody
      by_cases hsteps : (fs.getD "steps" .null).isList = true
      · simp [hfs, hbody, hbody', hsteps, hhas, hput]
      · by_cases hobj : (v.field "block").isObj = true
        · simp [hfs, hbody, hbody', hsteps, hobj, hhas, hput]
        · by_cases hlist : (v.field "block").isList = true
          · simp [hfs, hbody, hbody', hsteps, hobj, hlist, hhas, hput]
          · by_cases hbeside : (v.field "steps").isList = true
            · simp [hfs, hbody, hbody', hsteps, hobj, hlist, hbeside, hput]
            · simp [hfs, hbody, hbody', hsteps, hobj, hlist, hbeside, hblock]

/-! ### The two compared -/

theorem hasField_obj (fs : Fields Value) (name : String) :
    (Value.obj fs).hasField name = fs.has name :=
  rfl

theorem field_obj (fs : Fields Value) (name : String) :
    (Value.obj fs).field name = fs.getD name .null :=
  rfl

theorem branch_cases {b : Value} {bs : List Value} (hverb : v.field "verb" = .str "Choose")
    (hargs : v.field "args" = .obj fs)
    (hbs : (((Step.chooseArgs v fs).getD "branches" .null).orElse (.list [])).items = .ok bs)
    (hb : b ∈ bs) (hxs : stepsIn b = .ok xs) : xs = [] ∨ Holds v xs ∨ Stray v xs := by
  have hchoice : isChoice v := by rw [isChoice, hverb]; rfl
  cases hobj : b.isObj with
  | false =>
    -- such a branch may be a letter of a text, which is not a list of branches
    rw [stepsIn_of_not_isObj hobj] at hxs
    exact .inl (Except.ok.inj hxs).symm
  | true =>
    have hlist := isObj_of_items hbs hb hobj
    unfold chooseArgs at hlist
    split at hlist
    · rename_i hbeside
      rw [Bool.and_eq_true, Bool.not_eq_true'] at hbeside
      rw [getD, get?_put_self, Option.getD_some] at hlist
      refine .inr (.inr (.branches hchoice ?_ hlist hb hxs))
      rw [argsOf_eq hargs, hasField_obj, hbeside.1]
    · refine .inr (.inl (.branch hchoice ?_ hb hxs))
      rw [argsOf_eq hargs, field_obj, hlist]

theorem block_cases {gs : Fields Value} (hverb : v.field "verb" = .str "Repeat")
    (hargs : v.field "args" = .obj fs)
    (hgs : ∀ name ∈ ["block", "steps", "body"], gs.get? name = fs.get? name)
    (hxs : stepsIn ((Step.blockArgs v gs).getD "block" .null) = .ok xs) :
    xs = [] ∨ Holds v xs ∨ Stray v xs := by
  have hloop : isLoop v := by rw [isLoop, hverb]; rfl
  have hblock := hgs "block" (by decide)
  have hsteps := hgs "steps" (by decide)
  have hbody := hgs "body" (by decide)
  rw [getD, get?_blockArgs] at hxs
  simp only [has, getD, hblock, hsteps, hbody] at hxs
  cases hfs : fs.get? "block" with
  | some w =>
    rw [hfs] at hxs
    change stepsIn w = .ok xs at hxs
    cases w with
    | obj ws =>
      refine .inr (.inl (.block hloop ?_ hxs))
      rw [argsOf_eq hargs, blockOf, field_obj, getD, hfs]
      rfl
    | _ => exact .inl (Except.ok.inj hxs).symm
  | none =>
    rw [hfs] at hxs
    have hhas : (argsOf v).hasField "block" = false := by
      rw [argsOf_eq hargs, hasField_obj, has, hfs, Option.isSome_none]
    have hnull : (argsOf v).field "block" = .null := by
      rw [argsOf_eq hargs, field_obj, getD, hfs, Option.getD_none]
    dsimp only at hxs
    -- one case for each place that may have the block, in the order of the search
    split at hxs
    · rename_i h
      refine .inr (.inr (.body hloop hhas ?_ ?_))
      · rw [argsOf_eq hargs]
        exact h.1
      · rw [argsOf_eq hargs]
        exact hxs
    · split at hxs
      · rename_i h
        obtain ⟨ys, hys⟩ := exists_of_isList h
        rw [hys] at hxs
        obtain rfl := Except.ok.inj ((stepsIn_blockOf_list ys).symm.trans hxs)
        refine .inr (.inl (.args ?_))
        rw [argsOf_eq hargs]
        exact hys
      · rename_i hsteps
        split at hxs
        · rename_i h
          obtain ⟨ws, hws⟩ := exists_of_isObj h
          rw [hws] at hxs
          refine .inr (.inl (.block hloop (by rw [blockOf, hnull, hws]) (Eq.trans ?_ hxs)))
          -- the default of missing steps is not the same in the two, but counts as absent in both
          change (orElse ((ws.get? "steps").getD .null) _).items =
            (orElse ((ws.get? "steps").getD (.list [])) _).items
          cases ws.get? "steps" <;> rfl
        · split at hxs
          · rename_i h
            obtain ⟨ys, hys⟩ := exists_of_isList h
            rw [hys] at hxs
            exact .inr (.inl (.block hloop (by rw [blockOf, hnull, hys]) hxs))
          · split at hxs
            · rename_i h
              obtain ⟨ys, hys⟩ := exists_of_isList h
              rw [hys] at hxs
              obtain rfl := Except.ok.inj ((stepsIn_blockOf_list ys).symm.trans hxs)
              refine .inr (.inr (.steps hloop hhas ?_ hys))
              rw [argsOf_eq hargs]
              exact Bool.eq_false_iff.mpr hsteps
            · exact .inl (Except.ok.inj hxs).symm

theorem takes_cases {verb : String} (hverb : v.field "verb" = .str verb)
    (hmem : verb ∈ canonicalVerbs) (hargs : v.field "args" = .obj fs) (h : Takes v xs) :
    xs = [] ∨ Holds v xs ∨ Stray v xs := by
  cases h with
  | branch hs hchoose hbs hb hxs =>
    obtain ⟨rfl, hsargs⟩ := ofValue_eq hverb hmem hargs hs
    rw [arg, hsargs, hchoose] at hbs
    exact branch_cases (hchoose ▸ hverb) hargs hbs hb hxs
  | block hs hrepeat hxs =>
    obtain ⟨rfl, hsargs⟩ := ofValue_eq hverb hmem hargs hs
    rw [arg, hsargs, hrepeat] at hxs
    refine block_cases (hrepeat ▸ hverb) hargs (fun name hname => ?_) hxs
    refine get?_loopNames fs ?_
    revert name
    decide

end Overlay

end Loom
