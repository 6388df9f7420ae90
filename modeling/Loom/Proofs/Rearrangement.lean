import Mathlib
import Loom.Proofs.Fields
import Loom.Proofs.Forest

/-!
# What the Canonical Form Keeps

The passes that bring a flow into canonical form work on any documents, not only on those that
an outline gives. Steps change lists on the way: an empty repetition takes in what follows it,
and a `Return` comes out of one. So what they keep is said of all lists together. Each step of
a flow, at any depth, is listed without the steps of its own block, and every pass permutes
that listing.

The listing also says how much work is left. A flow weighs as much as the steps it lists, so a
pass leaves the weight as it was, and a block always weighs less than the flow it is in. The
fuel of `canonical` is above the weight, so it is enough for every block, and `returnLast` has
the last word at every level.
-/

namespace Loom.Flow

open List Value

/-- The lists of steps that a flow is made of. -/
inductive Level : List Value → List Value → Prop where
  | self (flow : List Value) : Level flow flow
  | inner {flow block level : List Value} {s : Value} (hs : s ∈ flow)
      (hblock : s.field "block" = .list block) (h : Level block level) : Level flow level

variable {flow out xs ys : List Value} {s : Value}

def blockIn (s : Value) : List Value := match s.field "block" with
  | .list xs => xs
  | _ => []

/-- A step without the steps of its block. -/
def bare (s : Value) : Value := mapBlock (fun _ => []) s

/-! ### A step and its block -/

theorem isObj_of_block (h : s.field "block" = .list xs) : s.isObj := by
  cases s with
  | obj fs => rfl
  | _ => cases h

theorem weightFields_put {fs : Fields Value} {name : String} {v : Value}
    (h : fs.get? name = some v) (w : Value) :
    weightFields (fs.put name w) + v.weight = weightFields fs + w.weight := by
  induction fs with
  | nil => cases h
  | cons f fs ih =>
    obtain ⟨k, u⟩ := f
    rw [Fields.get?] at h
    rw [Fields.put]
    split at h
    · next hk =>
      cases h
      rw [if_pos hk, weightFields, weightFields]
      omega
    · next hk =>
      rw [if_neg hk, weightFields, weightFields]
      have := ih h
      omega

theorem blockIn_of_block (h : s.field "block" = .list xs) : blockIn s = xs := by
  rw [blockIn, h]

theorem setField_block (h : s.field "block" = .list xs) (ys : List Value) :
    (s.setField "block" (.list ys)).field "block" = .list ys ∧
      blockIn (s.setField "block" (.list ys)) = ys ∧
      bare (s.setField "block" (.list ys)) = bare s := by
  have hself := field_setField_self (isObj_of_block h) "block" (.list ys)
  refine ⟨hself, blockIn_of_block hself, ?_⟩
  obtain ⟨fs, rfl⟩ := exists_of_isObj (isObj_of_block h)
  rw [bare, bare, mapBlock, mapBlock, h, hself]
  exact congrArg Value.obj (Fields.put_put ..)

theorem weight_eq (s : Value) : s.weight = (bare s).weight + weight (blockIn s) := by
  rw [bare, mapBlock, blockIn]
  cases h : s.field "block" with
  | list xs =>
    obtain ⟨fs, rfl⟩ := exists_of_isObj (isObj_of_block h)
    have hget : fs.get? "block" = some (.list xs) := by
      rw [Value.field, field?] at h
      cases hget : Fields.get? fs "block" with
      | none => rw [hget] at h; cases h
      | some v => rw [hget] at h; exact congrArg some h
    have hput := weightFields_put hget (.list [])
    simp only [setField, Value.weight, weightList, weight] at hput ⊢
    omega
  | _ => rfl

theorem headerVerb?_bare (s : Value) : headerVerb? (bare s) = headerVerb? s := by
  rw [bare, mapBlock]
  split
  · rw [headerVerb?, headerVerb?, field_setField_of_ne _ (by decide)]
  · rfl

theorem weight_pos (s : Value) : 0 < s.weight := by
  cases s <;> simp [Value.weight]

theorem weight_blockIn_lt (h : s ∈ flow) : weight (blockIn s) < weight flow := by
  induction flow with
  | nil => cases h
  | cons a flow ih =>
    rw [weight, weight, weightList]
    have hpos := weight_pos (bare s)
    rcases mem_cons.mp h with rfl | h
    · have := weight_eq s
      rw [weight] at this
      omega
    · have := ih h
      rw [weight, weight] at this
      omega

/-- The steps of a flow at all levels, each without its block. -/
def everyStep (flow : List Value) : List Value :=
  flow.flatMap fun s => bare s :: everyStep (blockIn s)
termination_by weight flow
decreasing_by exact weight_blockIn_lt ‹_›

/-! ### The listing -/

theorem everyStep_nil : everyStep [] = [] := by
  rw [everyStep, flatMap_nil]

theorem everyStep_cons (s : Value) (flow : List Value) :
    everyStep (s :: flow) = bare s :: (everyStep (blockIn s) ++ everyStep flow) := by
  rw [everyStep, flatMap_cons, ← everyStep, cons_append]

theorem everyStep_append (xs ys : List Value) :
    everyStep (xs ++ ys) = everyStep xs ++ everyStep ys := by
  rw [everyStep, flatMap_append, ← everyStep, ← everyStep]

theorem everyStep_perm (h : xs.Perm ys) : (everyStep xs).Perm (everyStep ys) := by
  rw [everyStep, everyStep]
  exact h.flatMap_right _

theorem weight_eq_sum (flow : List Value) :
    weight flow = ((everyStep flow).map Value.weight).sum := by
  cases flow with
  | nil =>
    rw [everyStep_nil]
    rfl
  | cons s flow =>
    have hs := weight_eq s
    rw [everyStep_cons, map_cons, sum_cons, map_append, sum_append,
      ← weight_eq_sum (blockIn s), ← weight_eq_sum flow]
    change s.weight + weight flow = _
    omega
termination_by weight flow
decreasing_by
  · exact weight_blockIn_lt mem_cons_self
  · have hpos := weight_pos s
    change weight flow < s.weight + weight flow
    omega

theorem weight_of_perm (h : (everyStep out).Perm (everyStep flow)) : weight out = weight flow := by
  rw [weight_eq_sum, weight_eq_sum, (h.map Value.weight).sum_nat]

theorem mapBlock_of_not_block (f : List Value → List Value)
    (h : ¬∃ xs, s.field "block" = .list xs) : mapBlock f s = s := by
  rw [mapBlock]
  split
  · next xs hxs => exact absurd ⟨xs, hxs⟩ h
  · rfl

theorem mapBlock_of_block (f : List Value → List Value) (h : s.field "block" = .list xs) :
    mapBlock f s = s.setField "block" (.list (f xs)) := by
  rw [mapBlock, h]

theorem field_mapBlock {f : List Value → List Value} (h : (mapBlock f s).field "block" = .list xs) :
    xs = f (blockIn s) := by
  by_cases hs : ∃ ys, s.field "block" = .list ys
  · obtain ⟨ys, hs⟩ := hs
    rw [mapBlock_of_block f hs, (setField_block hs _).1] at h
    rw [blockIn_of_block hs]
    exact (Value.list.inj h).symm
  · rw [mapBlock_of_not_block f hs] at h
    exact absurd ⟨xs, h⟩ hs

theorem everyStep_map_mapBlock {f : List Value → List Value}
    (hf : ∀ s ∈ flow, (everyStep (f (blockIn s))).Perm (everyStep (blockIn s))) :
    (everyStep (flow.map (mapBlock f))).Perm (everyStep flow) := by
  induction flow with
  | nil => rfl
  | cons s flow ih =>
    rw [map_cons, everyStep_cons, everyStep_cons]
    have hrest := ih fun s hs => hf s (mem_cons_of_mem _ hs)
    by_cases h : ∃ xs, s.field "block" = .list xs
    · obtain ⟨xs, h⟩ := h
      have hs := hf s mem_cons_self
      obtain ⟨_, hin, hbare⟩ := setField_block h (f xs)
      rw [mapBlock_of_block f h, hin, hbare]
      rw [blockIn_of_block h] at hs ⊢
      exact (hs.append hrest).cons _
    · rw [mapBlock_of_not_block f h]
      exact (hrest.append_left _).cons _

/-! ### The passes -/

theorem takeBody_append (flow : List Value) : (takeBody flow).1 ++ (takeBody flow).2 = flow := by
  fun_induction takeBody flow <;> simp_all

theorem block_of_isEmptyLoop (h : isEmptyLoop s) : s.field "block" = .list [] := by
  have hblock := (Bool.and_eq_true_iff.mp h).2
  split at hblock
  · next xs hxs => rw [hxs, List.isEmpty_iff.mp hblock]
  · cases hblock

theorem everyStep_fillFrom (fuel : Nat) (flow : List Value) :
    everyStep (fillFrom fuel flow) = everyStep flow := by
  fun_induction fillFrom fuel flow with
  | case1 | case2 => rfl
  | case3 fuel s rest hempty body after htake ih =>
    have hrest : body ++ after = rest := by rw [← takeBody_append rest, htake]
    have hblock := block_of_isEmptyLoop hempty
    obtain ⟨_, hin, hbare⟩ := setField_block hblock body
    rw [everyStep_cons, everyStep_cons, ih, hin, hbare, ← hrest, everyStep_append,
      blockIn_of_block hblock, everyStep_nil, nil_append]
  | case4 fuel s rest hfull ih => rw [everyStep_cons, everyStep_cons, ih]

theorem eq_take_cons_drop {i : Nat} (hi : i < flow.length) :
    flow = flow.take i ++ flow[i] :: flow.drop (i + 1) := by
  rw [← drop_eq_getElem_cons hi, take_append_drop]

theorem perm_moveToEnd (flow : List Value) (i : Nat) : (moveToEnd flow i).Perm flow := by
  rw [moveToEnd]
  split
  · next s hs =>
    obtain ⟨hi, rfl⟩ := List.getElem?_eq_some_iff.mp hs
    conv => rhs; rw [eq_take_cons_drop hi]
    rw [eraseIdx_eq_take_drop_succ, append_assoc]
    exact perm_append_comm.append_left _
  · rfl

theorem block_of_loneReturn? {r : Value} (h : loneReturn? s = some r) :
    s.field "block" = .list [r] := by
  rw [loneReturn?] at h
  split at h
  · next r' hblock =>
    split at h
    · cases h
      exact hblock
    · cases h
  · cases h

theorem everyStep_settleReturn (flow : List Value) :
    (everyStep (settleReturn flow)).Perm (everyStep flow) := by
  rw [settleReturn]
  split
  · next i last hplace hlast =>
    split
    · next r hlone =>
      obtain ⟨v, hv, hr⟩ := Option.bind_eq_some_iff.mp hlone
      obtain ⟨hi, rfl⟩ := List.getElem?_eq_some_iff.mp hv
      have hblock := block_of_loneReturn? hr
      obtain ⟨_, hin, hbare⟩ := setField_block hblock []
      rw [modify_eq_take_cons_drop hi]
      conv => rhs; rw [eq_take_cons_drop hi]
      rw [append_assoc, cons_append, everyStep_append, everyStep_append, everyStep_cons,
        everyStep_cons, everyStep_append, hin, hbare, blockIn_of_block hblock, everyStep_nil,
        nil_append]
      exact (perm_append_comm.cons _).append_left _
    · split
      · exact everyStep_perm (perm_moveToEnd flow i)
      · rfl
  · rfl

theorem everyStep_moveReturns (depth : Nat) (flow : List Value) :
    (everyStep (moveReturns depth flow)).Perm (everyStep flow) := by
  induction depth generalizing flow with
  | zero => rfl
  | succ depth ih => exact (everyStep_settleReturn _).trans (everyStep_map_mapBlock fun s _ => ih (blockIn s))

theorem length_places (verb : String) (flow : List Value) :
    (places verb flow).length = flow.countP (hasVerb verb) := by
  have hmap := congrArg List.length (Node.map_getElem?_places verb flow)
  rwa [length_map, length_map, ← countP_eq_length_filter] at hmap

theorem perm_returnLast (flow : List Value) : (returnLast flow).Perm flow := by
  rw [returnLast]
  split
  · exact perm_moveToEnd flow _
  · rfl

theorem getLast?_returnLast (h : flow.countP (hasVerb "Return") = 1) :
    ∃ s, (returnLast flow).getLast? = some s ∧ hasVerb "Return" s := by
  obtain ⟨i, hi⟩ := length_eq_one_iff.mp ((length_places "Return" flow).trans h)
  obtain ⟨s, hs, hverb⟩ := Node.exists_of_mem_places (hi ▸ mem_singleton_self i)
  refine ⟨s, ?_, hverb⟩
  rw [returnLast, hi]
  dsimp only
  rw [moveToEnd, hs]
  exact getLast?_concat

/-! ### All levels -/

theorem mem_everyStep (hs : s ∈ flow) :
    bare s ∈ everyStep flow ∧ ∀ t ∈ everyStep (blockIn s), t ∈ everyStep flow := by
  rw [everyStep]
  exact ⟨mem_flatMap.mpr ⟨s, hs, mem_cons_self⟩,
    fun t ht => mem_flatMap.mpr ⟨s, hs, mem_cons_of_mem _ ht⟩⟩

/-- A lone `Return` is the last step. -/
def EndsInReturn (flow : List Value) : Prop :=
  flow.countP (hasVerb "Return") = 1 → ∃ s, flow.getLast? = some s ∧ hasVerb "Return" s = true

theorem endsInReturn_returnLast (flow : List Value) : EndsInReturn (returnLast flow) :=
  fun h => getLast?_returnLast ((perm_returnLast flow).countP_eq _ ▸ h)

/-- What becomes of a block that has a canonical form. -/
def settledBlock (fuel : Nat) (xs : List Value) : List Value :=
  (canonicalAt fuel xs).toOption.getD xs

theorem settledBlock_eq {fuel : Nat} (h : canonicalAt fuel xs = .ok ys) :
    settledBlock fuel xs = ys := by
  rw [settledBlock, h]
  rfl

theorem mapM_onBlock {fuel : Nat} (h : ∀ s ∈ flow, ∃ ys, canonicalAt fuel (blockIn s) = .ok ys) :
    flow.mapM (onBlock (canonicalAt fuel)) = .ok (flow.map (mapBlock (settledBlock fuel))) := by
  induction flow with
  | nil => rfl
  | cons s flow ih =>
    have hs : onBlock (canonicalAt fuel) s = .ok (mapBlock (settledBlock fuel) s) := by
      obtain ⟨ys, hys⟩ := h s mem_cons_self
      rw [onBlock, mapBlock]
      split
      · next xs hxs =>
        rw [blockIn_of_block hxs] at hys
        rw [hys, settledBlock_eq hys]
        rfl
      · rfl
    rw [mapM_cons, hs, ih fun s hs => h s (mem_cons_of_mem _ hs)]
    rfl

theorem canonicalAt_rearranges {fuel : Nat} (hfuel : weight flow < fuel)
    (h : ∀ s ∈ everyStep flow, headerVerb? s = none) :
    ∃ out, canonicalAt fuel flow = .ok out ∧ (everyStep out).Perm (everyStep flow) ∧
      ∀ level, Level out level → EndsInReturn level := by
  induction fuel generalizing flow with
  | zero => exact absurd hfuel (Nat.not_lt_zero _)
  | succ fuel ih =>
    rw [canonicalAt_of_headerless fuel fun s hs =>
      headerVerb?_bare s ▸ h _ (mem_everyStep hs).1]
    have hmoved := everyStep_moveReturns (weight flow + 1) (fillLoops flow)
    rw [fillLoops, everyStep_fillFrom, ← fillLoops] at hmoved
    generalize moveReturns (weight flow + 1) (fillLoops flow) = moved at hmoved ⊢
    -- The passes so far kept the weight, so there is fuel for every block.
    have hblocks (s : Value) (hs : s ∈ moved) := @ih (blockIn s)
      (by have := weight_blockIn_lt hs; have := weight_of_perm hmoved; omega)
      fun t ht => h t (hmoved.mem_iff.mp ((mem_everyStep hs).2 t ht))
    rw [mapM_onBlock fun s hs => (hblocks s hs).imp fun _ hout => hout.1]
    refine ⟨_, rfl, ?_, fun level hlevel => ?_⟩
    · refine (everyStep_perm (perm_returnLast _)).trans (.trans ?_ hmoved)
      refine everyStep_map_mapBlock fun s hs => ?_
      obtain ⟨ys, hys, hperm, _⟩ := hblocks s hs
      rwa [settledBlock_eq hys]
    · cases hlevel with
      | self => exact endsInReturn_returnLast _
      | inner hs hblock hlevel =>
        obtain ⟨s, hmem, rfl⟩ := mem_map.mp ((perm_returnLast _).mem_iff.mp hs)
        obtain ⟨ys, hys, _, hlevels⟩ := hblocks s hmem
        rw [field_mapBlock hblock, settledBlock_eq hys] at hlevel
        exact hlevels level hlevel

/-- A flow without headers has a canonical form. It lists the same steps with the same
    arguments, all levels taken together, and a lone `Return` is the last of its list. -/
theorem canonical_rearranges (h : ∀ s ∈ everyStep flow, headerVerb? s = none) :
    ∃ out, canonical flow = .ok out ∧ (everyStep out).Perm (everyStep flow) ∧
      ∀ level, Level out level → EndsInReturn level :=
  canonicalAt_rearranges (Nat.lt_succ_self _) h

/-- A repetition that takes in a `Return`, and one in which a `Return` comes first. -/
theorem canonical_rearranges_loops : let line (verb : String) : Value := .obj [("verb", .str verb)]
    let loop (block : List Value) : Value := .obj [("verb", .str "Repeat"), ("block", .list block)]
    let flow := [loop [], line "Make", line "Return", loop [line "Return", line "Show"]]
    everyStep flow = [loop [], line "Make", line "Return", loop [], line "Return", line "Show"] ∧
      ∃ out, canonical flow = .ok out ∧ (everyStep out).Perm (everyStep flow) ∧
        ∀ level, Level out level → EndsInReturn level := by
  intro line loop flow
  have hline (verb : String) (rest : List Value) :
      everyStep (line verb :: rest) = line verb :: everyStep rest := by
    rw [everyStep_cons, show blockIn (line verb) = [] from rfl, everyStep_nil]
    rfl
  have hloop (block rest : List Value) :
      everyStep (loop block :: rest) = loop [] :: (everyStep block ++ everyStep rest) :=
    everyStep_cons (loop block) rest
  have hevery : everyStep flow =
      [loop [], line "Make", line "Return", loop [], line "Return", line "Show"] := by
    rw [hloop, hline, hline, hloop, hline, hline, everyStep_nil]
    rfl
  refine ⟨hevery, canonical_rearranges ?_⟩
  rw [hevery]
  decide +kernel

end Loom.Flow
