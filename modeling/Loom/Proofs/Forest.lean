import Loom.Flow.Canonical

/-!
# Flows as Forests

A flow that was built from an outline is a list of documents, but not of any
documents: each is the step of a line or a repetition with a block of such
steps. Proofs about a flow are proofs about that shape. Here it is a type of its
own, `Node`, in which every statement and every repetition also carries where it
came from. The origin does not reach the document; it is what lets a theorem say
*which* line ended up where, even if two lines read the same.

The passes that bring a flow into canonical form work on documents, by fields and
by positions. For each pass there is one lemma that says what it can do to a
forest. Merging headers and reading orphans do nothing, because no built step has
a header for its verb. Filling takes the run of lines after an empty repetition
into it, which leaves the listing of the forest as it was. A `Return` is moved to
the end of its list, or out of a repetition in which it is alone. So all that a
flow lists before the passes it lists after them, in another order at most:
`canonical_toValues`.
-/

namespace Loom.Flow

open Loom.Text List

section

variable {flow : List Value}

theorem mergeFrom_of_headerless (done : List Value) (h : ∀ s ∈ flow, headerVerb? s = none) :
    mergeFrom done flow = .ok (done.reverse ++ flow) := by
  induction flow generalizing done with
  | nil => rw [mergeFrom, append_nil]
  | cons s flow ih =>
    rw [mergeFrom, h s mem_cons_self]
    rw [ih _ fun s hs => h s (mem_cons_of_mem _ hs), reverse_cons, append_assoc, singleton_append]

theorem readOrphans_of_headerless (h : ∀ s ∈ flow, headerVerb? s = none) :
    readOrphans flow = .ok flow := by
  induction flow with
  | nil => rfl
  | cons s flow ih =>
    rw [readOrphans] at ih ⊢
    rw [mapM_cons, readOrphan, h s mem_cons_self, ih fun s hs => h s (mem_cons_of_mem _ hs)]
    rfl

theorem canonicalAt_of_headerless (fuel : Nat) (h : ∀ s ∈ flow, headerVerb? s = none) :
    canonicalAt (fuel + 1) flow = (do
      let flow ← (moveReturns (weight flow + 1) (fillLoops flow)).mapM (onBlock (canonicalAt fuel))
      pure (returnLast flow)) := by
  rw [canonicalAt, mergeHeaders, mergeFrom_of_headerless [] h]
  change (do let flow ← readOrphans flow
             let flow ← (moveReturns (weight flow + 1) (fillLoops flow)).mapM
               (onBlock (canonicalAt fuel))
             pure (returnLast flow)) = _
  rw [readOrphans_of_headerless h]
  rfl

end

/-- The step of a line that is no repetition. -/
def IsStatement (v : Value) : Prop :=
  ∃ verb args, v = stepValue verb args ∧ verb ∈ ["Return", "Show", "Ask", "Make", "Call"]

structure Statement (α : Type) where
  origin : α
  step : Value
  isStatement : IsStatement step

inductive Node (α : Type) where
  | line (s : Statement α)
  | loop (origin : α) (args : Value) (block : List (Node α))

/-- A statement or a repetition without its block. -/
inductive Entry (α : Type) where
  | line (s : Statement α)
  | loop (origin : α) (args : Value)

namespace Node

variable {α : Type}

mutual

def toValue : Node α → Value
  | line s => s.step
  | loop _ args block => loopStep args (toValues block)

def toValues : List (Node α) → List Value
  | [] => []
  | n :: ns => n.toValue :: toValues ns

end

mutual

/-- What a node lists: itself, then its block. -/
def entries : Node α → List (Entry α)
  | line s => [.line s]
  | loop origin args block => .loop origin args :: entriesOf block

def entriesOf : List (Node α) → List (Entry α)
  | [] => []
  | n :: ns => n.entries ++ entriesOf ns

end

theorem toValues_eq_map (ns : List (Node α)) : toValues ns = ns.map toValue := by
  induction ns with
  | nil => rfl
  | cons n ns ih => rw [toValues, ih, map_cons]

theorem toValues_append (ns ms : List (Node α)) :
    toValues (ns ++ ms) = toValues ns ++ toValues ms := by
  rw [toValues_eq_map, toValues_eq_map, toValues_eq_map, map_append]

theorem entriesOf_eq_flatMap (ns : List (Node α)) : entriesOf ns = ns.flatMap entries := by
  induction ns with
  | nil => rfl
  | cons n ns ih => rw [entriesOf, ih, flatMap_cons]

theorem entriesOf_append (ns ms : List (Node α)) :
    entriesOf (ns ++ ms) = entriesOf ns ++ entriesOf ms := by
  rw [entriesOf_eq_flatMap, entriesOf_eq_flatMap, entriesOf_eq_flatMap, flatMap_append]

variable {ns ms : List (Node α)}

theorem entriesOf_perm (h : ns.Perm ms) : (entriesOf ns).Perm (entriesOf ms) := by
  rw [entriesOf_eq_flatMap, entriesOf_eq_flatMap]
  exact h.flatMap_right entries

/-! ### What the passes ask of a step -/

def isReturn : Node α → Bool
  | line s => hasVerb "Return" s.step
  | loop _ _ _ => false

def isLoop : Node α → Bool
  | line _ => false
  | loop _ _ _ => true

variable (n : Node α)

theorem isObj_toValue : n.toValue.isObj := by
  cases n with
  | line s =>
    obtain ⟨verb, args, h, _⟩ := s.isStatement
    rw [toValue, h]
    rfl
  | loop _ _ _ => rfl

theorem hasVerb_return : hasVerb "Return" n.toValue = n.isReturn := by
  cases n <;> rfl

theorem hasVerb_repeat : hasVerb "Repeat" n.toValue = n.isLoop := by
  cases n with
  | line s =>
    obtain ⟨verb, args, h, hverb⟩ := s.isStatement
    rw [toValue, h]
    simp only [mem_cons, not_mem_nil, or_false] at hverb
    rcases hverb with rfl | rfl | rfl | rfl | rfl <;> rfl
  | loop _ _ _ => rfl

theorem headerVerb?_toValue : headerVerb? n.toValue = none := by
  have hshape : ∀ verb ∈ ["Return", "Show", "Ask", "Make", "Call", "Repeat"],
      isHeader (strip verb) = false := by decide +kernel
  have hnone : ∀ (v : Value) (verb : String), v.field "verb" = .str verb →
      verb ∈ ["Return", "Show", "Ask", "Make", "Call", "Repeat"] → headerVerb? v = none := by
    intro v verb hv hverb
    rw [headerVerb?, hv]
    exact if_neg (by simp [hshape verb hverb])
  cases n with
  | line s =>
    obtain ⟨verb, args, h, hverb⟩ := s.isStatement
    rw [toValue, h]
    exact hnone _ verb rfl (mem_append_left ["Repeat"] hverb)
  | loop _ args block => exact hnone _ "Repeat" rfl (by decide)

/-! ### Empty repetitions -/

theorem isEmptyLoop_loop (origin : α) (args : Value) (block : List (Node α)) :
    isEmptyLoop (loop origin args block).toValue = block.isEmpty := by
  cases block <;> rfl

theorem isEmptyLoop_line (s : Statement α) : isEmptyLoop (line s).toValue = false := by
  rw [isEmptyLoop, hasVerb_repeat, isLoop, Bool.false_and]

/-- The lines that a list starts with, up to the first `Return` and with it. -/
def runOf : List (Node α) → List (Node α)
  | line s :: ns => line s :: if isReturn (line s) then [] else runOf ns
  | _ => []

def afterRun : List (Node α) → List (Node α)
  | line s :: ns => if isReturn (line s) then ns else afterRun ns
  | ns => ns

theorem runOf_append_afterRun (ns : List (Node α)) : runOf ns ++ afterRun ns = ns := by
  induction ns with
  | nil => rfl
  | cons n ns ih =>
    cases n with
    | line s => rw [runOf, afterRun]; split <;> simp [ih]
    | loop origin args block => rfl

theorem takeBody_toValues (ns : List (Node α)) :
    takeBody (toValues ns) = (toValues (runOf ns), toValues (afterRun ns)) := by
  induction ns with
  | nil => rfl
  | cons n ns ih =>
    rw [toValues, takeBody, isObj_toValue, hasVerb_repeat, hasVerb_return, ih]
    cases n with
    | line s =>
      rw [runOf, afterRun]
      cases hreturn : isReturn (line s) <;> simp [isLoop, toValues]
    | loop origin args block => rfl

/-- A forest with its empty repetitions filled, but not those inside of others.
    The fuel bounds the steps. -/
def fillOf : Nat → List (Node α) → List (Node α)
  | 0, ns => ns
  | _ + 1, [] => []
  | fuel + 1, loop origin args [] :: ns =>
    loop origin args (runOf ns) :: fillOf fuel (afterRun ns)
  | fuel + 1, loop origin args (m :: block) :: ns => loop origin args (m :: block) :: fillOf fuel ns
  | fuel + 1, line s :: ns => line s :: fillOf fuel ns

def filled (ns : List (Node α)) : List (Node α) := fillOf ns.length ns

theorem fillFrom_toValues (fuel : Nat) (ns : List (Node α)) :
    fillFrom fuel (toValues ns) = toValues (fillOf fuel ns) := by
  induction fuel generalizing ns with
  | zero => rfl
  | succ fuel ih =>
    match ns with
    | [] => rfl
    | loop origin args [] :: ns =>
      rw [toValues, fillFrom, isEmptyLoop_loop, takeBody_toValues, fillOf, toValues, ← ih]
      rfl
    | loop origin args (m :: block) :: ns =>
      rw [toValues, fillFrom, isEmptyLoop_loop, fillOf, toValues, ← ih]
      rfl
    | line s :: ns =>
      rw [toValues, fillFrom, isEmptyLoop_line, fillOf, toValues, ← ih]
      rfl

theorem fillLoops_toValues (ns : List (Node α)) :
    fillLoops (toValues ns) = toValues (filled ns) := by
  rw [fillLoops, fillFrom_toValues, toValues_eq_map ns, length_map]
  rfl

theorem entriesOf_fillOf (fuel : Nat) (ns : List (Node α)) :
    entriesOf (fillOf fuel ns) = entriesOf ns := by
  induction fuel generalizing ns with
  | zero => rfl
  | succ fuel ih =>
    match ns with
    | [] => rfl
    | loop origin args [] :: ns =>
      -- The listing goes through a block where its repetition stands, so the run
      -- is listed right after the header in both forests.
      rw [fillOf, entriesOf, ih, entriesOf, entries, entries]
      conv => rhs; rw [← runOf_append_afterRun ns, entriesOf_append]
      rfl
    | loop origin args (m :: block) :: ns | line s :: ns => rw [fillOf, entriesOf, ih, entriesOf]

/-! ### Moving a `Return` -/

/-- Whether a node is a repetition of a `Return` and of nothing else. -/
def holdsReturn : Node α → Bool
  | loop _ _ [n] => n.isReturn
  | _ => false

/-- Whether there is one `Return` and the last repetition holds another, which then
    comes out. -/
def drawsReturn (ns : List (Node α)) : Bool :=
  ns.countP isReturn == 1 && (ns.filter isLoop).getLast?.any holdsReturn

/-- Whether there is one `Return` and a repetition after it. -/
def passesReturn (ns : List (Node α)) : Bool :=
  ns.countP isReturn == 1 && (ns.dropWhile (!·.isReturn)).any isLoop

/-- What settling a `Return` can do to a list. -/
inductive Settles : List (Node α) → List (Node α) → Prop where
  | stay (ns : List (Node α)) : Settles ns ns
  /-- The `Return` goes to the end. -/
  | move (before after : List (Node α)) (r : Node α) (hr : r.isReturn)
      (hpasses : passesReturn (before ++ r :: after)) :
      Settles (before ++ r :: after) (before ++ (after ++ [r]))
  /-- Another that is alone in its repetition comes out to the end. -/
  | lift (before after : List (Node α)) (r : Node α) (origin : α) (args : Value)
      (hdraws : drawsReturn (before ++ loop origin args [r] :: after)) :
      Settles (before ++ loop origin args [r] :: after)
        (before ++ loop origin args [] :: (after ++ [r]))

namespace Settles

variable {ns ms : List (Node α)}

theorem entriesOf_perm (h : Settles ns ms) : (entriesOf ns).Perm (entriesOf ms) := by
  cases h with
  | stay => exact .refl _
  | move before after r =>
    exact Node.entriesOf_perm ((@List.perm_append_comm _ [r] after).append_left before)
  | lift before after r origin args =>
    rw [entriesOf_append, entriesOf_append, entriesOf, entriesOf, entries, entries,
      entriesOf_append]
    simp only [entriesOf, append_nil, cons_append, nil_append]
    exact (perm_append_comm.cons _).append_left _

end Settles

theorem map_getElem?_places (verb : String) (flow : List Value) :
    (places verb flow).map (flow[·]?) = (flow.filter (hasVerb verb)).map some := by
  have hfst : flow.filter (hasVerb verb)
      = (flow.zipIdx.filter fun x => hasVerb verb x.1).map Prod.fst := by
    have hmap := @List.filter_map _ _ Prod.fst (hasVerb verb) flow.zipIdx
    rwa [zipIdx_map_fst] at hmap
  rw [places, hfst, map_map, map_map]
  refine map_congr_left fun x hx => ?_
  exact mem_zipIdx_iff_getElem?.mp (mem_filter.mp hx).1

variable {i : Nat}

theorem exists_of_mem_places {verb : String} {flow : List Value}
    (h : i ∈ places verb flow) : ∃ v, flow[i]? = some v ∧ hasVerb verb v := by
  obtain ⟨x, hx, rfl⟩ := mem_map.mp h
  obtain ⟨hmem, hverb⟩ := mem_filter.mp hx
  exact ⟨x.1, mem_zipIdx_iff_getElem?.mp hmem, hverb⟩

theorem filter_toValues {p : Value → Bool} {q : Node α → Bool} (h : ∀ n : Node α, p n.toValue = q n)
    (ns : List (Node α)) : (toValues ns).filter p = toValues (ns.filter q) := by
  rw [toValues_eq_map, toValues_eq_map, filter_map]
  exact congrArg (map toValue) (filter_congr fun n _ => h n)

variable {v : Value}

theorem exists_split_of_getElem? (h : (toValues ns)[i]? = some v) :
    ∃ before n after, ns = before ++ n :: after ∧ before.length = i ∧ n.toValue = v := by
  rw [toValues_eq_map, getElem?_map, Option.map_eq_some_iff] at h
  obtain ⟨n, hn, hv⟩ := h
  obtain ⟨hi, rfl⟩ := List.getElem?_eq_some_iff.mp hn
  refine ⟨ns.take i, ns[i], ns.drop (i + 1), ?_, length_take_of_le (Nat.le_of_lt hi), hv⟩
  rw [← drop_eq_getElem_cons hi, take_append_drop]

theorem exists_split_of_places (h : places "Return" (toValues ns) = [i]) : ns.countP isReturn = 1 ∧
      ∃ before r after, ns = before ++ r :: after ∧ before.length = i ∧ r.isReturn := by
  have hmap := map_getElem?_places "Return" (toValues ns)
  rw [h, filter_toValues hasVerb_return, toValues_eq_map (ns.filter isReturn)] at hmap
  have hlen := congrArg List.length hmap
  simp only [length_map, length_singleton] at hlen
  obtain ⟨r, hr⟩ := length_eq_one_iff.mp hlen.symm
  rw [hr] at hmap
  simp only [map_cons, map_nil, List.cons.injEq, and_true] at hmap
  obtain ⟨before, n, after, hns, hbefore, hn⟩ := exists_split_of_getElem? hmap
  have hret : r ∈ ns.filter isReturn := by rw [hr]; exact mem_singleton_self r
  refine ⟨by rw [countP_eq_length_filter, ← hlen], before, n, after, hns, hbefore, ?_⟩
  rw [← hasVerb_return, hn, hasVerb_return]
  exact (mem_filter.mp hret).2

theorem moveToEnd_toValues (before after : List (Node α)) (r : Node α) :
    moveToEnd (toValues (before ++ r :: after)) before.length
      = toValues (before ++ (after ++ [r])) := by
  have hlen : (toValues before).length = before.length := by rw [toValues_eq_map, length_map]
  rw [moveToEnd, toValues_append, toValues_append, toValues_append, toValues, ← hlen,
    getElem?_append_right (Nat.le_refl _), Nat.sub_self]
  dsimp only [getElem?_cons_zero]
  rw [eraseIdx_append_of_length_le (Nat.le_refl _), Nat.sub_self, append_assoc]
  rfl

theorem loneReturn?_toValue {n : Node α} (h : loneReturn? n.toValue = some v) :
    ∃ origin args r, n = loop origin args [r] ∧ r.isReturn ∧ v = r.toValue := by
  match n, h with
  | line s, h =>
    obtain ⟨verb, args, hs, _⟩ := s.isStatement
    rw [toValue, hs] at h
    exact absurd h (Option.some_ne_none v).symm
  | loop origin args [r], h =>
    change (if hasVerb "Return" r.toValue then some r.toValue else none) = some v at h
    rw [hasVerb_return] at h
    cases hr : r.isReturn with
    | false => rw [hr] at h; exact absurd h (Option.some_ne_none v).symm
    | true =>
      rw [hr, if_pos rfl, Option.some_inj] at h
      exact ⟨origin, args, r, rfl, hr, h.symm⟩

theorem isSome_loneReturn? : (loneReturn? n.toValue).isSome = n.holdsReturn := by
  match n with
  | line s =>
    obtain ⟨verb, args, hs, _⟩ := s.isStatement
    rw [toValue, hs]
    rfl
  | loop _ _ [] => rfl
  | loop _ _ [r] =>
    change (if hasVerb "Return" r.toValue then some r.toValue else none).isSome = r.isReturn
    rw [hasVerb_return]
    cases r.isReturn <;> rfl
  | loop _ _ (_ :: _ :: _) => rfl

theorem getLast?_places {last : Nat} (hlast : (places "Repeat" (toValues ns)).getLast? = some last)
    (hv : (toValues ns)[last]? = some v) : ((ns.filter isLoop).getLast?).map toValue = some v := by
  have hmap := congrArg getLast? (map_getElem?_places "Repeat" (toValues ns))
  rw [filter_toValues hasVerb_repeat, getLast?_map, hlast, Option.map_some, hv,
    getLast?_map, toValues_eq_map, getLast?_map] at hmap
  cases hend : (ns.filter isLoop).getLast? with
  | none => rw [hend] at hmap; exact absurd hmap (Option.some_ne_none _)
  | some n =>
    rw [hend] at hmap
    exact (Option.some_inj.mp hmap).symm

theorem modify_toValues (before after : List (Node α)) (n m : Node α) (f : Value → Value)
    (h : f n.toValue = m.toValue) :
    (toValues (before ++ n :: after)).modify before.length f = toValues (before ++ m :: after) := by
  induction before with
  | nil => rw [nil_append, nil_append, toValues, toValues, ← h]; rfl
  | cons b before ih =>
    rw [cons_append, cons_append, toValues, toValues, length_cons, modify_succ_cons, ih]

theorem passesReturn_of_lt {before after front back : List (Node α)} {r n : Node α}
    (hns : before ++ r :: after = front ++ n :: back) (hlt : before.length < front.length)
    (hone : (before ++ r :: after).countP isReturn = 1) (hr : r.isReturn)
    (hn : n.isLoop) : passesReturn (before ++ r :: after) := by
  have hnone : ∀ m ∈ before, m.isReturn = false := by
    rw [countP_append, countP_cons_of_pos hr] at hone
    have hzero : before.countP isReturn = 0 := by omega
    exact fun m hm => Bool.eq_false_iff.mpr (countP_eq_zero.mp hzero m hm)
  have hmem : n ∈ r :: after := by
    have hdrop := congrArg (List.drop before.length) hns
    rw [drop_left, drop_append_of_le_length (Nat.le_of_lt hlt)] at hdrop
    rw [hdrop]
    simp
  have hrest : (before ++ r :: after).dropWhile (!·.isReturn) = r :: after := by
    rw [dropWhile_append_of_pos (fun m hm => by rw [hnone m hm]; rfl),
      dropWhile_cons_of_neg (by simp [hr])]
  rw [passesReturn, hone, hrest]
  exact any_eq_true.mpr ⟨n, hmem, hn⟩

theorem settleReturn_toValues (ns : List (Node α)) :
    ∃ ms, settleReturn (toValues ns) = toValues ms ∧ Settles ns ms := by
  rw [settleReturn]
  split
  · rename_i i last hplace hlast
    obtain ⟨hone, before, r, after, hns, hbefore, hr⟩ := exists_split_of_places hplace
    split
    · -- The last repetition is looked at first: what is alone in it is appended, while
      -- the `Return` of the list itself stays where it is.
      rename_i v hlone
      obtain ⟨w, hw, hv⟩ := Option.bind_eq_some_iff.mp hlone
      have hdraws : drawsReturn ns := by
        obtain ⟨n, hn, rfl⟩ := Option.map_eq_some_iff.mp (getLast?_places hlast hw)
        have hholds : n.holdsReturn := by rw [← isSome_loneReturn?, hv]; rfl
        rw [drawsReturn, hone, hn, Option.any_some, hholds]
        rfl
      obtain ⟨front, n, back, rfl, rfl, rfl⟩ := exists_split_of_getElem? hw
      obtain ⟨origin, args, q, rfl, _, rfl⟩ := loneReturn?_toValue hv
      refine ⟨front ++ loop origin args [] :: (back ++ [q]), ?_,
        .lift front back q origin args hdraws⟩
      rw [modify_toValues front back (loop origin args [q]) (loop origin args []) _ rfl,
        ← cons_append, ← append_assoc, toValues_append _ [q]]
      rfl
    · split
      · -- Otherwise it moves only past a repetition.
        rename_i hlt
        obtain ⟨w, hw, hverb⟩ := exists_of_mem_places (mem_of_getLast? hlast)
        obtain ⟨front, n, back, hsplit, rfl, rfl⟩ := exists_split_of_getElem? hw
        rw [hasVerb_repeat] at hverb
        subst hns hbefore
        exact ⟨before ++ (after ++ [r]), moveToEnd_toValues before after r,
          .move before after r hr (passesReturn_of_lt hsplit hlt hone hr hverb)⟩
      · exact ⟨ns, rfl, .stay ns⟩
  · exact ⟨ns, rfl, .stay ns⟩

theorem returnLast_toValues (ns : List (Node α)) :
    ∃ ms, returnLast (toValues ns) = toValues ms ∧ ms.Perm ns := by
  rw [returnLast]
  split
  · rename_i i hplace
    obtain ⟨_, before, r, after, rfl, rfl, hr⟩ := exists_split_of_places hplace
    exact ⟨before ++ (after ++ [r]), moveToEnd_toValues before after r,
      (@List.perm_append_comm _ after [r]).append_left before⟩
  · exact ⟨ns, rfl, .refl ns⟩

/-! ### All depths -/

/-- Two lists with the same steps, except for blocks that are related. -/
inductive Blockwise (R : List (Node α) → List (Node α) → Prop) :
    List (Node α) → List (Node α) → Prop where
  | nil : Blockwise R [] []
  | line {ns ms : List (Node α)} (s : Statement α) (h : Blockwise R ns ms) :
      Blockwise R (line s :: ns) (line s :: ms)
  | loop {ns ms b c : List (Node α)} (origin : α) (args : Value) (hblock : R b c)
      (h : Blockwise R ns ms) : Blockwise R (loop origin args b :: ns) (loop origin args c :: ms)

theorem Blockwise.entriesOf_perm
    (h : Blockwise (fun b c => (entriesOf b).Perm (entriesOf c)) ns ms) :
    (entriesOf ns).Perm (entriesOf ms) := by
  induction h with
  | nil => exact .refl _
  | line s _ ih => exact ih.cons (.line s)
  | loop origin args hblock _ ih => exact (hblock.cons (.loop origin args)).append ih

theorem mapM_onBlock_toValues {f : List Value → Except Error (List Value)}
    {R : List (Node α) → List (Node α) → Prop} (ns : List (Node α))
    (hf : ∀ origin args b, loop origin args b ∈ ns →
      ∃ c, f (toValues b) = .ok (toValues c) ∧ R b c) :
    ∃ ms, (toValues ns).mapM (onBlock f) = .ok (toValues ms) ∧ Blockwise R ns ms := by
  induction ns with
  | nil => exact ⟨[], rfl, .nil⟩
  | cons n ns ih =>
    obtain ⟨ms, hms, hrest⟩ := ih fun origin args b hb =>
      hf origin args b (mem_cons_of_mem n hb)
    rw [toValues, mapM_cons, hms]
    cases n with
    | line s =>
      obtain ⟨verb, args, hs, _⟩ := s.isStatement
      refine ⟨line s :: ms, ?_, .line s hrest⟩
      rw [toValues, toValue, hs]
      rfl
    | loop origin args b =>
      obtain ⟨c, hc, hblock⟩ := hf origin args b mem_cons_self
      have hon : onBlock f (loop origin args b).toValue = .ok (loop origin args c).toValue := by
        change (do let xs ← f (toValues b)
                   pure ((loopStep args (toValues b)).setField "block" (.list xs))) = _
        rw [hc]
        rfl
      exact ⟨loop origin args c :: ms, by rw [hon]; rfl, .loop origin args hblock hrest⟩

theorem onBlock_ok (f : List Value → List Value) (v : Value) :
    onBlock (fun xs => .ok (f xs)) v = .ok (mapBlock f v) := by
  rw [onBlock, mapBlock]
  split <;> rfl

theorem map_mapBlock_toValues {f : List Value → List Value}
    {R : List (Node α) → List (Node α) → Prop} (ns : List (Node α))
    (hf : ∀ origin args b, loop origin args b ∈ ns → ∃ c, f (toValues b) = toValues c ∧ R b c) :
    ∃ ms, (toValues ns).map (mapBlock f) = toValues ms ∧ Blockwise R ns ms := by
  obtain ⟨ms, hms, hblocks⟩ := @mapM_onBlock_toValues α (fun xs => .ok (f xs)) R ns
    fun origin args b hb => by
      obtain ⟨c, hc, hR⟩ := hf origin args b hb
      exact ⟨c, congrArg Except.ok hc, hR⟩
  rw [funext (onBlock_ok f)] at hms
  exact ⟨ms, Except.ok.inj (mapM_pure.symm.trans hms), hblocks⟩

theorem moveReturns_toValues (depth : Nat) (ns : List (Node α)) :
    ∃ ms, moveReturns depth (toValues ns) = toValues ms ∧ (entriesOf ns).Perm (entriesOf ms) := by
  induction depth generalizing ns with
  | zero => exact ⟨ns, rfl, .refl _⟩
  | succ depth ih =>
    obtain ⟨ms, hms, hblocks⟩ := map_mapBlock_toValues ns fun origin args b _ => ih b
    obtain ⟨ks, hks, hsettle⟩ := settleReturn_toValues ms
    refine ⟨ks, ?_, hblocks.entriesOf_perm.trans hsettle.entriesOf_perm⟩
    rw [moveReturns, hms, hks]

theorem canonicalAt_succ_toValues (fuel : Nat) (ns : List (Node α)) :
    canonicalAt (fuel + 1) (toValues ns) = (do
      let flow ← (moveReturns (weight (toValues ns) + 1) (toValues (filled ns))).mapM
        (onBlock (canonicalAt fuel))
      pure (returnLast flow)) := by
  rw [canonicalAt_of_headerless fuel, fillLoops_toValues]
  rw [toValues_eq_map]
  exact forall_mem_map.mpr fun n _ => headerVerb?_toValue n

theorem canonicalAt_toValues (fuel : Nat) (ns : List (Node α)) :
    ∃ ms, canonicalAt fuel (toValues ns) = .ok (toValues ms) ∧
      (entriesOf ns).Perm (entriesOf ms) := by
  induction fuel generalizing ns with
  | zero => exact ⟨ns, rfl, .refl _⟩
  | succ fuel ih =>
    obtain ⟨moved, hmoved, hmove⟩ := moveReturns_toValues (weight (toValues ns) + 1) (filled ns)
    obtain ⟨inner, hinner, hblocks⟩ := mapM_onBlock_toValues moved fun origin args b _ => ih b
    obtain ⟨last, hlast, hreturn⟩ := returnLast_toValues inner
    refine ⟨last, ?_, ?_⟩
    · rw [canonicalAt_succ_toValues, hmoved, hinner, ← hlast]
      rfl
    · rw [filled, entriesOf_fillOf] at hmove
      exact (hmove.trans hblocks.entriesOf_perm).trans (Node.entriesOf_perm hreturn).symm

theorem canonical_toValues (ns : List (Node α)) :
    ∃ ms, canonical (toValues ns) = .ok (toValues ms) ∧ (entriesOf ns).Perm (entriesOf ms) :=
  canonicalAt_toValues (weight (toValues ns) + 1) ns

end Node

end Loom.Flow
