import Loom.Proofs.Filling

/-!
# Settled Flows

What the canonical form does to a flow in which no step changes its repetition. If
no empty repetition takes anything in and no `Return` is drawn out of its
repetition, then a single `Return` goes to the end of its list, at every depth,
and that is all.

The passes come back to a list several times, and each time it may look different:
a `Return` that has gone to the end can stand behind an empty repetition that had
nothing to take in before. Whether a list is still depends on the kinds of its
steps alone, and what has been moved so far does not change where the steps are
going to be. So the argument is about two things that a pass keeps: that a flow is
still, and what it is once it is `settled`.
-/

namespace Loom.Flow

open List Bool

/-! ### Moving one element to the end -/

section LastBy

variable {β γ : Type}

/-- The list with its one element of a sort at the end; as it is if there is none
    or more than one. -/
def lastBy (p : β → Bool) (l : List β) : List β :=
  if l.countP p = 1 then l.filter (!p ·) ++ l.filter p else l

theorem perm_lastBy (p : β → Bool) (l : List β) : (lastBy p l).Perm l := by
  rw [lastBy]
  split
  · exact perm_append_comm.trans (filter_append_perm p l)
  · exact .refl l

theorem map_lastBy (f : γ → β) (p : β → Bool) (l : List γ) :
    (lastBy (fun x => p (f x)) l).map f = lastBy p (l.map f) := by
  have hcount : (l.map f).countP p = l.countP (fun x => p (f x)) := countP_map
  rw [lastBy, lastBy, hcount]
  split
  · rw [map_append, filter_map, filter_map]
    rfl
  · rfl

theorem lastBy_append_cons {p : β → Bool} {before after : List β} {r : β} (hr : p r)
    (hone : (before ++ r :: after).countP p = 1) :
    lastBy p (before ++ r :: after) = before ++ (after ++ [r]) := by
  have hcount := hone
  rw [countP_append, countP_cons_of_pos hr] at hcount
  have hbefore : ∀ x ∈ before, ¬p x := countP_eq_zero.mp (by omega)
  have hafter : ∀ x ∈ after, ¬p x := countP_eq_zero.mp (by omega)
  rw [lastBy, if_pos hone, filter_append, filter_append, filter_cons_of_pos hr,
    filter_cons_of_neg (by simp [hr]), filter_eq_nil_iff.mpr hbefore,
    filter_eq_nil_iff.mpr hafter, filter_eq_self.mpr (by simpa using hbefore),
    filter_eq_self.mpr (by simpa using hafter), append_assoc]
  rfl

theorem lastBy_lastBy (p : β → Bool) (l : List β) : lastBy p (lastBy p l) = lastBy p l := by
  by_cases hone : l.countP p = 1
  · have hrest : ∀ x ∈ l.filter (!p ·), ¬p x := fun x hx => by
      simpa using (mem_filter.mp hx).2
    have hlast : ∀ x ∈ l.filter p, ¬(!p x) := fun x hx => by
      simpa using (mem_filter.mp hx).2
    have hmoved : lastBy p l = l.filter (!p ·) ++ l.filter p := if_pos hone
    rw [hmoved, lastBy, if_pos (by rw [← hmoved, (perm_lastBy p l).countP_eq, hone]),
      filter_append, filter_append, filter_eq_nil_iff.mpr hrest,
      filter_eq_nil_iff.mpr hlast, append_nil, nil_append, filter_filter,
      filter_filter]
    simp
  · have hstays : lastBy p l = l := if_neg hone
    rw [hstays, hstays]

end LastBy

variable {α : Type}

namespace Node

/-! ### Kinds of steps -/

/-- What the passes look at in a step: whether it is a `Return`, and for a
    repetition whether its block is empty or just a `Return`. -/
inductive Kind where
  | ret | other | empty | lone | full
  deriving DecidableEq

namespace Kind

def isLine : Kind → Bool
  | ret | other => true
  | _ => false

def isReturn (k : Kind) : Bool := k == ret

/-- Whether an empty repetition stands before a line, which it then takes in. -/
def takesIn : List Kind → Bool
  | [] => false
  | k :: ks => (k == empty && ks.head?.any isLine) || takesIn ks

/-- Whether a `Return` is drawn out of the last repetition. -/
def drawsOut (ks : List Kind) : Bool :=
  ks.countP isReturn == 1 && (ks.filter (!·.isLine)).getLast?.any (· == lone)

/-- Whether no step changes its repetition, also once a single `Return` has gone to
    the end. -/
def areStill (ks : List Kind) : Bool :=
  !drawsOut ks && (!takesIn ks && !takesIn (lastBy isReturn ks))

theorem drawsOut_lastBy (ks : List Kind) : drawsOut (lastBy isReturn ks) = drawsOut ks := by
  have hloops : (lastBy isReturn ks).filter (!·.isLine) = ks.filter (!·.isLine) := by
    have hnone : ∀ k ∈ ks.filter isReturn, ¬(!k.isLine) := fun k hk => by
      rw [eq_of_beq (mem_filter.mp hk).2]
      exact false_ne_true
    have hall : ∀ k : Kind, (!k.isLine && !isReturn k) = !k.isLine := fun k => by cases k <;> rfl
    rw [lastBy]
    split
    · rw [filter_append, filter_eq_nil_iff.mpr hnone, append_nil, filter_filter]
      simp only [hall]
    · rfl
  rw [drawsOut, drawsOut, (perm_lastBy isReturn ks).countP_eq, hloops]

theorem areStill_lastBy {ks : List Kind} (h : areStill ks) :
    areStill (lastBy isReturn ks) := by
  simp only [areStill, and_eq_true, not_eq_true'] at h ⊢
  rw [drawsOut_lastBy, lastBy_lastBy]
  exact ⟨h.1, h.2.2, h.2.2⟩

end Kind

def kind : Node α → Kind
  | line s => if hasVerb "Return" s.step then .ret else .other
  | loop _ _ [] => .empty
  | loop _ _ [n] => if n.isReturn then .lone else .full
  | loop _ _ (_ :: _ :: _) => .full

theorem isReturn_kind (n : Node α) : n.kind.isReturn = n.isReturn := by
  match n with
  | line s => rw [kind, isReturn]; cases hasVerb "Return" s.step <;> rfl
  | loop _ _ [] => rfl
  | loop _ _ [m] => rw [kind, isReturn]; cases m.isReturn <;> rfl
  | loop _ _ (_ :: _ :: _) => rfl

theorem isLine_kind (n : Node α) : n.kind.isLine = !n.isLoop := by
  match n with
  | line s => rw [kind]; cases hasVerb "Return" s.step <;> rfl
  | loop _ _ [] => rfl
  | loop _ _ [m] => rw [kind]; cases m.isReturn <;> rfl
  | loop _ _ (_ :: _ :: _) => rfl

theorem holdsReturn_eq_kind (n : Node α) : n.holdsReturn = (n.kind == .lone) := by
  match n with
  | line s => rw [kind, holdsReturn]; cases hasVerb "Return" s.step <;> rfl; exact nofun
  | loop _ _ [] => rfl
  | loop _ _ [m] => rw [kind, holdsReturn]; cases m.isReturn <;> rfl
  | loop _ _ (_ :: _ :: _) => rfl

theorem map_kind_lastBy (ns : List (Node α)) :
    (lastBy isReturn ns).map kind = lastBy Kind.isReturn (ns.map kind) := by
  rw [← map_lastBy]
  simp only [isReturn_kind]

theorem drawsReturn_eq (ns : List (Node α)) : drawsReturn ns = Kind.drawsOut (ns.map kind) := by
  have hcount : (ns.map kind).countP Kind.isReturn = ns.countP isReturn := by
    rw [countP_map]
    exact congrArg (countP · ns) (funext isReturn_kind)
  have hloops : (ns.map kind).filter (!·.isLine) = (ns.filter isLoop).map kind := by
    rw [filter_map]
    refine congrArg (map kind) (filter_congr fun n _ => ?_)
    change (!n.kind.isLine) = n.isLoop
    rw [isLine_kind, Bool.not_not]
  rw [drawsReturn, Kind.drawsOut, hcount, hloops, getLast?_map, Option.any_map]
  congr 2
  exact funext holdsReturn_eq_kind

theorem kind_loop_of_perm {b c : List (Node α)} (h : (c.map kind).Perm (b.map kind))
    (origin : α) (args : Value) : (loop origin args c).kind = (loop origin args b).kind := by
  have hlength : c.length = b.length := by simpa using h.length_eq
  match b, c, hlength with
  | [], [], _ => rfl
  | [n], [m], _ =>
    have hkind : m.kind = n.kind := by simpa using h
    rw [kind, kind, ← isReturn_kind m, ← isReturn_kind n, hkind]
  | _ :: _ :: _, _ :: _ :: _, _ => rfl

/-! ### Settled flows -/

mutual

def settleNode : Node α → Node α
  | line s => line s
  | loop origin args block => loop origin args (lastBy isReturn (settleNodes block))

def settleNodes : List (Node α) → List (Node α)
  | [] => []
  | n :: ns => settleNode n :: settleNodes ns

end

/-- The flow with every single `Return` at the end of its list. -/
def settled (ns : List (Node α)) : List (Node α) := lastBy isReturn (settleNodes ns)

theorem settleNodes_eq_map (ns : List (Node α)) : settleNodes ns = ns.map settleNode := by
  induction ns with
  | nil => rfl
  | cons n ns ih => rw [settleNodes, ih, map_cons]

theorem isReturn_settleNode (n : Node α) : n.settleNode.isReturn = n.isReturn := by
  cases n <;> rfl

theorem settleNodes_lastBy (ns : List (Node α)) :
    settleNodes (lastBy isReturn ns) = lastBy isReturn (settleNodes ns) := by
  rw [settleNodes_eq_map, settleNodes_eq_map, ← map_lastBy]
  simp only [isReturn_settleNode]

theorem settled_lastBy (ns : List (Node α)) : settled (lastBy isReturn ns) = settled ns := by
  rw [settled, settled, settleNodes_lastBy, lastBy_lastBy]

mutual

/-- What holds of the blocks of a node, at any depth. -/
def inBlocks (p : List (Node α) → Bool) : Node α → Bool
  | line _ => true
  | loop _ _ block => p block && allInBlocks p block

def allInBlocks (p : List (Node α) → Bool) : List (Node α) → Bool
  | [] => true
  | n :: ns => n.inBlocks p && allInBlocks p ns

end

/-- What holds of a list of steps and of every block in it. -/
def everywhere (p : List (Node α) → Bool) (ns : List (Node α)) : Bool := p ns && allInBlocks p ns

variable {ns : List (Node α)} {p : List (Node α) → Bool}

theorem allInBlocks_iff : allInBlocks p ns ↔ ∀ n ∈ ns, n.inBlocks p := by
  induction ns with
  | nil => simp [allInBlocks]
  | cons n ns ih => rw [allInBlocks, and_eq_true, ih, forall_mem_cons]

theorem everywhere_of_mem {b : List (Node α)} {origin : α}
    {args : Value} (h : everywhere p ns) (hmem : loop origin args b ∈ ns) :
    everywhere p b := by
  rw [everywhere, and_eq_true] at h
  exact allInBlocks_iff.mp h.2 _ hmem

theorem everywhere_self (h : everywhere p ns) : p ns := by
  rw [everywhere, and_eq_true] at h
  exact h.1

/-- No step of a list changes its repetition. -/
def isStill (ns : List (Node α)) : Bool := Kind.areStill (ns.map kind)

/-- No step of the flow changes its repetition, at any depth. -/
def still (ns : List (Node α)) : Bool := everywhere isStill ns

theorem isStill_iff (ns : List (Node α)) : isStill ns ↔ Kind.drawsOut (ns.map kind) = false ∧
      Kind.takesIn (ns.map kind) = false ∧
      Kind.takesIn (lastBy Kind.isReturn (ns.map kind)) = false := by
  simp only [isStill, Kind.areStill, and_eq_true, not_eq_true']

theorem still_lastBy (h : still ns) : still (lastBy isReturn ns) := by
  rw [still, everywhere, and_eq_true, allInBlocks_iff] at h ⊢
  rw [isStill, map_kind_lastBy]
  exact ⟨Kind.areStill_lastBy h.1, fun n hn => h.2 n ((perm_lastBy isReturn ns).mem_iff.mp hn)⟩

/-! ### The passes -/

theorem fillOf_of_takesIn (h : Kind.takesIn (ns.map kind) = false)
    (fuel : Nat) : fillOf fuel ns = ns := by
  induction fuel generalizing ns with
  | zero => rfl
  | succ fuel ih =>
    cases ns with
    | nil => rfl
    | cons n ns =>
      rw [map_cons, Kind.takesIn, or_eq_false_iff] at h
      have hrest := ih h.2
      cases n with
      | line s => rw [fillOf, hrest]
      | loop origin args block =>
        cases block with
        | cons m block => rw [fillOf, hrest]
        | nil =>
          -- the step after it is a repetition, if there is one
          cases ns with
          | nil => exact congrArg (loop origin args [] :: ·) hrest
          | cons m ns =>
            cases m with
            | loop _ _ _ => exact congrArg (loop origin args [] :: ·) hrest
            | line s =>
              have hline : (line s).kind.isLine := isLine_kind (line s)
              rw [map_cons, head?_cons, Option.any_some, hline] at h
              exact absurd h.1 Bool.noConfusion

theorem length_places_return (ns : List (Node α)) :
    (places "Return" (toValues ns)).length = ns.countP isReturn := by
  have hmap := congrArg List.length (map_getElem?_places "Return" (toValues ns))
  rwa [length_map, length_map, filter_toValues hasVerb_return,
    toValues_eq_map (ns.filter isReturn), length_map, ← countP_eq_length_filter] at hmap

theorem returnLast_eq (ns : List (Node α)) :
    returnLast (toValues ns) = toValues (lastBy isReturn ns) := by
  rw [returnLast]
  split
  · rename_i i hplace
    obtain ⟨hone, before, r, after, rfl, rfl, hr⟩ := exists_split_of_places hplace
    rw [moveToEnd_toValues, lastBy_append_cons hr hone]
  · rename_i hplaces
    have hmany : ns.countP isReturn ≠ 1 := fun hone => by
      obtain ⟨i, hi⟩ := length_eq_one_iff.mp ((length_places_return ns).trans hone)
      exact hplaces i hi
    rw [lastBy, if_neg hmany]

theorem settleReturn_of_draws (h : drawsReturn ns = false) :
    ∃ ms, settleReturn (toValues ns) = toValues ms ∧ (ms = ns ∨ ms = lastBy isReturn ns) := by
  obtain ⟨ms, hms, hsettles⟩ := settleReturn_toValues ns
  refine ⟨ms, hms, ?_⟩
  cases hsettles with
  | stay => exact .inl rfl
  | move before after r hr hpasses =>
    rw [passesReturn, and_eq_true, beq_iff_eq] at hpasses
    exact .inr (lastBy_append_cons hr hpasses.1).symm
  | lift _ _ _ _ _ hdraws => exact absurd (hdraws.symm.trans h) Bool.noConfusion

/-- A flow that differs in what has been moved so far. -/
structure Near (ns ms : List (Node α)) : Prop where
  settled : settled ms = settled ns
  still : still ms
  kinds : (ms.map kind).Perm (ns.map kind)
  entries : (entriesOf ns).Perm (entriesOf ms)

theorem Near.refl (h : Node.still ns) : Near ns ns := ⟨rfl, h, .refl _, .refl _⟩

variable {ms : List (Node α)}

theorem Near.lastBy (h : Near ns ms) : Near ns (lastBy isReturn ms) := by
  have hperm := perm_lastBy isReturn ms
  exact ⟨(settled_lastBy ms).trans h.settled, still_lastBy h.still,
    (hperm.map kind).trans h.kinds, h.entries.trans (entriesOf_perm hperm.symm)⟩

theorem near_of_blockwise (h : Blockwise Near ns ms) (hstill : still ns) : Near ns ms := by
  have hsame : settleNodes ms = settleNodes ns ∧ allInBlocks isStill ms ∧
      ms.map kind = ns.map kind := by
    clear hstill
    induction h with
    | nil => exact ⟨rfl, rfl, rfl⟩
    | line s _ ih =>
      obtain ⟨hsettle, hall, hkinds⟩ := ih
      rw [settleNodes, settleNodes, allInBlocks, map_cons, map_cons, hsettle, hall, hkinds]
      exact ⟨rfl, rfl, rfl⟩
    | loop origin args hblock _ ih =>
      obtain ⟨hsettle, hall, hkinds⟩ := ih
      have hinner := hblock.settled
      rw [Node.settled, Node.settled] at hinner
      rw [settleNodes, settleNodes, settleNode, settleNode, hinner, allInBlocks, map_cons,
        map_cons, kind_loop_of_perm hblock.kinds, hsettle, hall, hkinds, Bool.and_true]
      exact ⟨rfl, hblock.still, rfl⟩
  obtain ⟨hsettle, hall, hkinds⟩ := hsame
  refine ⟨by rw [settled, settled, hsettle], ?_, by rw [hkinds],
    (h.mono fun _ _ hblock => hblock.entries).entriesOf_perm⟩
  have hown := everywhere_self hstill
  rw [isStill, ← hkinds] at hown
  rw [still, everywhere, hall, isStill, hown]
  rfl

theorem near_moveReturns (depth : Nat) (h : still ns) :
    ∃ ms, moveReturns depth (toValues ns) = toValues ms ∧ Near ns ms := by
  induction depth generalizing ns with
  | zero => exact ⟨ns, rfl, .refl h⟩
  | succ depth ih =>
    obtain ⟨ms, hms, hblocks⟩ := map_mapBlock_toValues ns fun origin args b hb =>
      ih (everywhere_of_mem h hb)
    have hnear := near_of_blockwise hblocks h
    have hdraws : drawsReturn ms = false := by
      rw [drawsReturn_eq]
      exact ((isStill_iff ms).mp (everywhere_self hnear.still)).1
    obtain ⟨ks, hks, heq | heq⟩ := settleReturn_of_draws hdraws
    · exact ⟨ms, by rw [moveReturns, hms, hks, heq], hnear⟩
    · exact ⟨lastBy isReturn ms, by rw [moveReturns, hms, hks, heq], hnear.lastBy⟩

theorem settleNodes_of_blockwise
    (h : Blockwise (fun b c => c = settled b) ns ms) : ms = settleNodes ns := by
  induction h with
  | nil => rfl
  | line s _ ih => rw [ih, settleNodes, settleNode]
  | loop origin args hblock _ ih => rw [ih, hblock, settleNodes, settleNode, settled]

theorem canonicalAt_of_still {fuel : Nat}
    (hfuel : (entriesOf ns).length < fuel) (h : still ns) :
    canonicalAt fuel (toValues ns) = .ok (toValues (settled ns)) := by
  induction fuel generalizing ns with
  | zero => exact absurd hfuel (Nat.not_lt_zero _)
  | succ fuel ih =>
    have hfilled : filled ns = ns :=
      fillOf_of_takesIn ((isStill_iff ns).mp (everywhere_self h)).2.1 _
    obtain ⟨ms, hms, hnear⟩ := near_moveReturns (weight (toValues ns) + 1) h
    -- the blocks of a flow list less than the flow, so the fuel left is enough for them
    obtain ⟨inner, hinner, hblocks⟩ := @mapM_onBlock_toValues _ (canonicalAt fuel)
      (fun b c => c = settled b) ms fun origin args b hb => by
        have hlt := length_entriesOf_lt hb
        rw [← hnear.entries.length_eq] at hlt
        exact ⟨settled b, ih (by omega) (everywhere_of_mem hnear.still hb), rfl⟩
    rw [canonicalAt_succ_toValues, hfilled, hms, hinner]
    change Except.ok (returnLast (toValues inner)) = _
    rw [returnLast_eq, settleNodes_of_blockwise hblocks]
    exact congrArg (fun ns => Except.ok (toValues ns)) hnear.settled

theorem canonical_of_still (h : still ns) :
    canonical (toValues ns) = .ok (toValues (settled ns)) :=
  canonicalAt_of_still (Nat.lt_succ_of_le (length_entriesOf_le_weight ns)) h

end Node

end Loom.Flow
