import Loom.Proofs.Meaning

/-!
# Flows That Stay

When the canonical form of a flow is its own canonical form. The passes leave every list tidy:
no `Return` is left to be drawn out of a repetition, and a single one is at the end. A second
time there is only one thing for them to do. A `Return` that went to the end, or was drawn out,
may have come to stand behind an empty repetition that had nothing to take in before, and then
it is taken in now. Where no empty repetition stands before a line, the form stays as it is.
-/

namespace Loom.Flow

open List Bool

section EndsBy

variable {β : Type} {p : β → Bool} {l : List β}

/-- Whether an element that is alone of its sort is at the end. -/
def endsBy (p : β → Bool) (l : List β) : Bool := l.countP p != 1 || l.getLast?.any p

theorem endsBy_lastBy (p : β → Bool) (l : List β) : endsBy p (lastBy p l) := by
  rw [endsBy, (perm_lastBy p l).countP_eq]
  by_cases hone : l.countP p = 1
  · obtain ⟨r, hr⟩ := length_eq_one_iff.mp (countP_eq_length_filter.symm.trans hone)
    have hmem : r ∈ l.filter p := by
      rw [hr]
      exact mem_singleton_self r
    rw [lastBy, if_pos hone, hr, getLast?_concat, Option.any_some, (mem_filter.mp hmem).2,
      Bool.or_true]
  · rw [bne_iff_ne.mpr hone, Bool.true_or]

theorem lastBy_of_endsBy (h : endsBy p l) : lastBy p l = l := by
  by_cases hone : l.countP p = 1
  · rw [endsBy, hone, bne_self_eq_false, Bool.false_or] at h
    cases hlast : l.getLast? with
    | none => rw [hlast] at h; exact absurd h false_ne_true
    | some r =>
      rw [hlast] at h
      obtain ⟨before, rfl⟩ := getLast?_eq_some_iff.mp hlast
      exact lastBy_append_cons h hone
  · exact if_neg hone

end EndsBy

variable {α : Type} {ns ms b c : List (Node α)} {origin : α} {args : Value}

namespace Node

theorem everywhere_iff {p : List (Node α) → Bool} : everywhere p ns ↔
    p ns ∧ ∀ origin args b, loop origin args b ∈ ns → everywhere p b := by
  rw [everywhere, and_eq_true, allInBlocks_iff]
  refine and_congr_right fun _ => ⟨fun h origin args b hb => h _ hb, fun h n hn => ?_⟩
  cases n with
  | line s => rfl
  | loop origin args b => exact h origin args b hn

/-- No `Return` is drawn out, and a single one is at the end. -/
def isTidy (ns : List (Node α)) : Bool := !Kind.drawsOut (ns.map kind) && endsBy isReturn ns

/-- No empty repetition stands before a line. -/
def takesNone (ns : List (Node α)) : Bool := !Kind.takesIn (ns.map kind)

/-! ### The form is tidy -/

/-- The kind of a repetition whose block lists these entries. -/
def blockKind : List (Entry α) → Kind
  | [] => .empty
  | [.line s] => if hasVerb "Return" s.step then .lone else .full
  | _ => .full

theorem entries_ne_nil (n : Node α) : n.entries ≠ [] := by
  cases n <;> exact cons_ne_nil _ _

theorem kind_loop (origin : α) (args : Value) (b : List (Node α)) :
    (loop origin args b).kind = blockKind (entriesOf b) := by
  match b with
  | [] => rfl
  | [line s] => rfl
  | [loop _ _ c] =>
    rw [entriesOf, entries]
    cases entriesOf c <;> rfl
  | n :: m :: b =>
    obtain ⟨e, es, hn⟩ := exists_cons_of_ne_nil n.entries_ne_nil
    obtain ⟨f, fs, hm⟩ := exists_cons_of_ne_nil m.entries_ne_nil
    rw [entriesOf, entriesOf, hn, hm]
    cases e <;> cases es <;> rfl

theorem blockKind_of_perm {es fs : List (Entry α)} (h : es.Perm fs) :
    blockKind es = blockKind fs := by
  have hlength := h.length_eq
  match es, fs, hlength with
  | [], [], _ => rfl
  | [e], [f], _ => rw [singleton_perm_singleton.mp h]
  | e :: _ :: _, f :: _ :: _, _ => cases e <;> cases f <;> rfl

theorem kind_loop_of_entries (h : (entriesOf b).Perm (entriesOf c)) :
    (loop origin args b).kind = (loop origin args c).kind := by
  rw [kind_loop, kind_loop, blockKind_of_perm h]

theorem settleReturn_of_drawsReturn (h : drawsReturn ns) :
    ∃ ms : List (Node α), settleReturn (toValues ns) = toValues ms ∧ drawsReturn ms = false := by
  rw [drawsReturn, and_eq_true, beq_iff_eq] at h
  obtain ⟨hone, hlone⟩ := h
  cases hlast : (ns.filter isLoop).getLast? with
  | none =>
    rw [hlast] at hlone
    cases hlone
  | some n =>
    rw [hlast, Option.any_some, ← isSome_loneReturn?] at hlone
    obtain ⟨v, hv⟩ := Option.isSome_iff_exists.mp hlone
    obtain ⟨i, hi⟩ := length_eq_one_iff.mp ((length_places_return ns).trans hone)
    have hloops := congrArg getLast? (map_getElem?_places "Repeat" (toValues ns))
    rw [filter_toValues hasVerb_repeat, toValues_eq_map (ns.filter isLoop), getLast?_map,
      getLast?_map, getLast?_map, hlast] at hloops
    obtain ⟨last, hplace, hget⟩ := Option.map_eq_some_iff.mp hloops
    have hsettle : settleReturn (toValues ns) =
        (toValues ns).modify last (·.setField "block" (.list [])) ++ [v] := by
      rw [settleReturn, hi, hplace]
      dsimp only
      rw [hget, Option.bind_some, hv]
    obtain ⟨front, m, back, rfl, rfl, hm⟩ := exists_split_of_getElem? hget
    rw [← hm] at hv
    obtain ⟨origin, args, q, rfl, hq, rfl⟩ := loneReturn?_toValue hv
    refine ⟨front ++ loop origin args [] :: (back ++ [q]), ?_, ?_⟩
    · rw [hsettle, modify_toValues front back (loop origin args [q]) (loop origin args []) _ rfl,
        ← cons_append, ← append_assoc, toValues_append _ [q]]
      rfl
    · -- There are now two of them, and none is drawn out of a list with two.
      have htwo : (front ++ loop origin args [] :: (back ++ [q])).countP isReturn = 2 := by
        rw [countP_append, countP_cons] at hone ⊢
        rw [countP_append, countP_singleton, hq, if_pos rfl]
        have hnone : isReturn (loop origin args [q]) = isReturn (loop origin args []) := rfl
        rw [hnone] at hone
        omega
      rw [drawsReturn, htwo]
      rfl

theorem drawsReturn_of_settleReturn {ns ms : List (Node Unit)}
    (h : settleReturn (toValues ns) = toValues ms) : drawsReturn ms = false := by
  cases hdraws : drawsReturn ns with
  | true =>
    obtain ⟨ks, hks, hquiet⟩ := settleReturn_of_drawsReturn hdraws
    rwa [toValues_injective ms ks (h.symm.trans hks)]
  | false =>
    obtain ⟨ks, hks, hsame⟩ := settleReturn_of_draws hdraws
    rw [toValues_injective ms ks (h.symm.trans hks)]
    rcases hsame with rfl | rfl
    · exact hdraws
    · rwa [drawsReturn_eq, map_kind_lastBy, Kind.drawsOut_lastBy, ← drawsReturn_eq]

theorem kinds_of_blockwise {R : List (Node α) → List (Node α) → Prop}
    (h : Blockwise R ns ms) (hR : ∀ b c, R b c → (entriesOf b).Perm (entriesOf c)) :
    ms.map kind = ns.map kind := by
  induction h with
  | nil => rfl
  | line s _ ih => rw [map_cons, map_cons, ih]
  | loop origin args hblock _ ih =>
    rw [map_cons, map_cons, ih, kind_loop_of_entries (hR _ _ hblock).symm]

theorem mem_of_blockwise {R : List (Node α) → List (Node α) → Prop}
    (h : Blockwise R ns ms) (hmem : loop origin args c ∈ ms) : ∃ b, R b c := by
  induction h with
  | nil => cases hmem
  | line s _ ih =>
    rcases mem_cons.mp hmem with heq | hmem
    · cases heq
    · exact ih hmem
  | loop origin' args' hblock _ ih =>
    rcases mem_cons.mp hmem with heq | hmem
    · cases heq
      exact ⟨_, hblock⟩
    · exact ih hmem

theorem exists_tidy_canonicalAt {fuel : Nat} {ns : List (Node Unit)}
    (hfuel : (entriesOf ns).length < fuel) :
    ∃ ms : List (Node Unit), canonicalAt fuel (toValues ns) = .ok (toValues ms) ∧
      (entriesOf ns).Perm (entriesOf ms) ∧ everywhere isTidy ms := by
  induction fuel generalizing ns with
  | zero => exact absurd hfuel (Nat.not_lt_zero _)
  | succ fuel ih =>
    obtain ⟨moved, hmoved, hmove⟩ := moveReturns_toValues (weight (toValues ns) + 1) (filled ns)
    rw [filled, entriesOf_fillOf] at hmove
    have hdraws : drawsReturn moved = false := by
      obtain ⟨before, hbefore, _⟩ := map_mapBlock_toValues (filled ns)
        fun origin args b _ => moveReturns_toValues (weight (toValues ns)) b
      have hsettled : settleReturn (toValues before) = toValues moved := by
        rw [← hmoved, moveReturns, hbefore]
      exact drawsReturn_of_settleReturn hsettled
    obtain ⟨inner, hinner, hblocks⟩ := @mapM_onBlock_toValues _ (canonicalAt fuel)
      (fun b c => (entriesOf b).Perm (entriesOf c) ∧ everywhere isTidy c = true) moved
      fun origin args b hb => by
        have hlt := length_entriesOf_lt hb
        rw [← hmove.length_eq] at hlt
        exact ih (by omega)
    have hkinds := kinds_of_blockwise hblocks fun _ _ h => h.1
    refine ⟨lastBy isReturn inner, ?_, ?_, everywhere_iff.mpr ⟨?_, ?_⟩⟩
    · rw [canonicalAt_succ_toValues, hmoved, hinner, ← returnLast_eq]
      rfl
    · exact (hmove.trans (hblocks.mono fun _ _ h => h.1).entriesOf_perm).trans
        (entriesOf_perm (perm_lastBy isReturn inner).symm)
    · rw [isTidy, map_kind_lastBy, Kind.drawsOut_lastBy, hkinds, ← drawsReturn_eq, hdraws,
        endsBy_lastBy]
      rfl
    · intro origin args c hc
      obtain ⟨b, hb⟩ := mem_of_blockwise hblocks ((perm_lastBy isReturn inner).mem_iff.mp hc)
      exact hb.2

/-! ### Tidy flows that take nothing in -/

theorem settled_of_tidy (h : everywhere isTidy ns) : settled ns = ns := by
  induction hn : (entriesOf ns).length using Nat.strongRecOn generalizing ns with
  | _ n ih =>
    obtain ⟨hown, hblocks⟩ := everywhere_iff.mp h
    have hnodes : settleNodes ns = ns := by
      rw [settleNodes_eq_map]
      refine (map_congr_left fun n hmem => ?_).trans (map_id ns)
      cases n with
      | line s => rfl
      | loop origin args b =>
        exact congrArg (loop origin args)
          (ih _ (hn ▸ length_entriesOf_lt hmem) (hblocks _ _ _ hmem) rfl)
    rw [isTidy, and_eq_true] at hown
    rw [settled, hnodes, lastBy_of_endsBy hown.2]

theorem still_of_tidy (h : everywhere isTidy ns) (hquiet : everywhere takesNone ns) :
    still ns := by
  induction hn : (entriesOf ns).length using Nat.strongRecOn generalizing ns with
  | _ n ih =>
    obtain ⟨hown, hblocks⟩ := everywhere_iff.mp h
    obtain ⟨hownq, hblocksq⟩ := everywhere_iff.mp hquiet
    refine everywhere_iff.mpr ⟨?_, fun origin args b hb => ?_⟩
    · rw [isTidy, and_eq_true, not_eq_true'] at hown
      rw [takesNone, not_eq_true'] at hownq
      rw [isStill_iff, ← map_kind_lastBy, lastBy_of_endsBy hown.2]
      exact ⟨hown.1, hownq, hownq⟩
    · exact ih _ (hn ▸ length_entriesOf_lt hb) (hblocks _ _ _ hb) (hblocksq _ _ _ hb) rfl

end Node

open Node Loom.Outline

/-- The canonical form of a flow that was built is its own canonical form if no empty
    repetition stands before a line in it, at any depth. -/
theorem canonical_is_fixed {steps : Value} {flow : List Value} (h : buildFlow steps = .ok flow) :
    ∃ ns : List (Node Unit), canonical flow = .ok (toValues ns) ∧
      (everywhere takesNone ns = true → canonical (toValues ns) = .ok (toValues ns)) := by
  obtain ⟨ns, rfl, _⟩ := exists_isBuilt_of_buildFlow h
  obtain ⟨ms, hms, _, htidy⟩ := exists_tidy_canonicalAt
    (Nat.lt_succ_of_le (length_entriesOf_le_weight ns))
  refine ⟨ms, hms, fun hquiet => ?_⟩
  rw [canonical_of_still (still_of_tidy htidy hquiet), settled_of_tidy htidy]

theorem canonical_is_fixed_earlyReturn :
    ∃ ns : List (Node Unit), canonical (toValues earlyReturnNodes) = .ok (toValues ns) ∧
      canonical (toValues ns) = .ok (toValues ns) := by
  have hbuilt : buildFlow earlyReturn = .ok (toValues earlyReturnNodes) :=
    Value.eq_ok_of_areCopies (by decide +kernel)
  obtain ⟨ns, hns, hfixed⟩ := canonical_is_fixed hbuilt
  have hstill : still earlyReturnNodes = true := by decide +kernel
  obtain rfl := toValues_injective _ _ (Except.ok.inj (hns.symm.trans (canonical_of_still hstill)))
  exact ⟨_, hns, hfixed (by decide +kernel)⟩

end Loom.Flow
