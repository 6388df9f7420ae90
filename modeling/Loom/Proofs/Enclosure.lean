import Loom.Proofs.Filling
import Loom.Proofs.Nest

/-!
# Who Is Inside Whom While Lines Are Read

The two relations of a forest, for a nest whose repetitions are still open. An open
repetition encloses what it holds so far and every repetition further in, so a new
line is inside all of them: `encloses_push`. What the empty repetitions take in
depends on what the innermost list ends with. If that is an empty repetition and a
run of lines after it, the next line is taken in as well: `fills_push`.

Closing repetitions changes neither relation. But it does change which list is the
innermost, and then only a repetition that is closed with nothing inside can take
in what comes next.
-/

namespace Loom.Flow

open Node List

variable {α : Type}
variable {b : Nest α} {l : OpenNode α} {rest : List (OpenNode α)} {level : Int} (stays : Int → Bool)

/-! ### Who is inside whom in a nest -/

/-- Who is inside whom among open repetitions, innermost first. -/
def OpenPairs : List (OpenNode α) → α → α → Prop
  | [], _, _ => False
  | l :: rest, i, j => OpenPairs rest i j ∨ (i, j) ∈ pairsOf l.nodes ∨
      (i = l.origin ∧ j ∈ originsOf l.nodes) ∨
      (i ∈ rest.map OpenNode.origin ∧ (j = l.origin ∨ j ∈ originsOf l.nodes))

namespace Nest

def Encloses (b : Nest α) (i j : α) : Prop := (i, j) ∈ pairsOf b.outer ∨ OpenPairs b.loops i j

theorem mem_pairsOf_close (l : OpenNode α) (inner : List (Node α)) (i j : α) :
    (i, j) ∈ pairsOf [l.close inner] ↔
      (i = l.origin ∧ (j ∈ originsOf inner ∨ j ∈ originsOf l.nodes)) ∨
        (i, j) ∈ pairsOf inner ∨ (i, j) ∈ pairsOf l.nodes := by
  rw [pairsOf, pairsOf, append_nil, OpenNode.close, pairs, mem_append,
    mem_pairsOf_reverse, pairsOf_append, mem_append]
  simp only [mem_map, mem_originsOf_reverse, originsOf_append, mem_append, Prod.mk.injEq]
  constructor
  · rintro (⟨k, hk, rfl, rfl⟩ | h)
    · exact .inl ⟨rfl, hk⟩
    · exact .inr h
  · rintro (⟨rfl, hk⟩ | h)
    · exact .inl ⟨j, hk, rfl, rfl⟩
    · exact .inr h

theorem mem_originsOf_close (l : OpenNode α) (inner : List (Node α)) (j : α) :
    j ∈ originsOf [l.close inner] ↔ j = l.origin ∨ j ∈ originsOf inner ∨ j ∈ originsOf l.nodes := by
  rw [originsOf, entriesOf, entriesOf, append_nil, OpenNode.close, Node.entries, map_cons, mem_cons]
  change j = l.origin ∨ j ∈ originsOf _ ↔ _
  rw [mem_originsOf_reverse, originsOf_append, mem_append]

theorem mem_pairsOf_closeAll (inner outer : List (Node α)) (loops : List (OpenNode α)) (i j : α) :
    (i, j) ∈ pairsOf (closeWhile (fun _ => false) inner outer loops).outer ↔
      (i, j) ∈ pairsOf outer ∨ OpenPairs loops i j ∨ (i, j) ∈ pairsOf inner ∨
        (i ∈ loops.map OpenNode.origin ∧ j ∈ originsOf inner) := by
  induction loops generalizing inner with
  | nil =>
    simp only [closeWhile, pairsOf_append, mem_append, OpenPairs, map_nil,
      not_mem_nil, false_and, or_false, false_or]
    exact Or.comm
  | cons l rest ih =>
    have hclosed : closeWhile (fun _ => false) inner outer (l :: rest)
        = closeWhile (fun _ => false) [l.close inner] outer rest := rfl
    rw [hclosed, ih, mem_pairsOf_close, mem_originsOf_close, OpenPairs, map_cons, mem_cons]
    grind

theorem mem_pairsOf_forest (b : Nest α) (i j : α) : (i, j) ∈ pairsOf b.forest ↔ b.Encloses i j := by
  rw [forest, mem_pairsOf_reverse, mem_pairsOf_closeAll, Encloses]
  simp [pairsOf, originsOf, entriesOf]

theorem forest_closeWhile (inner outer : List (Node α))
    (loops : List (OpenNode α)) : (closeWhile stays inner outer loops).forest
      = (closeWhile (fun _ => false) inner outer loops).outer.reverse := by
  induction loops generalizing inner with
  | nil => rfl
  | cons l rest ih =>
    rw [closeWhile]
    split
    · rfl
    · rw [ih]
      rfl

theorem forest_leave (b : Nest α) (level : Int) : (b.leave level).forest = b.forest :=
  forest_closeWhile _ [] b.outer b.loops

theorem encloses_leave (b : Nest α) (level : Int) (i j : α) :
    (b.leave level).Encloses i j ↔ b.Encloses i j := by
  rw [← mem_pairsOf_forest, ← mem_pairsOf_forest, forest_leave]

theorem encloses_push (b : Nest α) (s : Statement α) (i j : α) : (b.push (.line s)).Encloses i j ↔
      b.Encloses i j ∨ (i ∈ b.loops.map OpenNode.origin ∧ j = s.origin) := by
  have hpairs : ∀ ns : List (Node α), pairsOf (.line s :: ns) = pairsOf ns := fun _ => rfl
  have horigins : ∀ ns : List (Node α), originsOf (.line s :: ns) = s.origin :: originsOf ns :=
    fun _ => rfl
  rcases b with ⟨_ | ⟨l, rest⟩, outer⟩
  · simp [push, Encloses, OpenPairs, hpairs]
  · simp only [push, Encloses, OpenPairs, hpairs, horigins, mem_cons, map_cons]
    grind

theorem encloses_openLoop (b : Nest α) (level : Int) (origin : α) (args : Value) (i j : α) :
    (b.openLoop level origin args).Encloses i j ↔
      b.Encloses i j ∨ (i ∈ b.loops.map OpenNode.origin ∧ j = origin) := by
  simp only [openLoop, Encloses, OpenPairs, pairsOf, originsOf, entriesOf, map_nil,
    not_mem_nil, or_false, false_or, and_false]
  grind

/-! ### Levels of open repetitions -/

/-- The open repetitions by origin and level, innermost first. -/
def keys (b : Nest α) : List (α × Int) := b.loops.map fun l => (l.origin, l.level)

theorem mem_origins_iff (b : Nest α) (i : α) :
    i ∈ b.loops.map OpenNode.origin ↔ ∃ level, (i, level) ∈ b.keys := by
  simp only [keys, mem_map, Prod.mk.injEq]
  constructor
  · rintro ⟨l, hl, rfl⟩
    exact ⟨l.level, l, hl, rfl, rfl⟩
  · rintro ⟨_, l, hl, rfl, _⟩
    exact ⟨l, hl, rfl⟩

theorem keys_closeWhile (inner outer : List (Node α))
    (loops : List (OpenNode α)) : (closeWhile stays inner outer loops).keys
      = (loops.map fun l => (l.origin, l.level)).dropWhile (!stays ·.2) := by
  induction loops generalizing inner with
  | nil => rfl
  | cons l rest ih =>
    rw [closeWhile, map_cons, dropWhile_cons]
    cases hstays : stays l.level with
    | true => simp only [if_true, Bool.not_true, Bool.false_eq_true, if_false]; rfl
    | false => simp only [Bool.false_eq_true, if_false, Bool.not_false, if_true, ih]

theorem keys_leave (hsorted : b.keys.Pairwise fun x y => y.2 < x.2) (level : Int) :
    (b.leave level).keys = b.keys.filter (·.2 < level) := by
  rw [leave, keys_closeWhile]
  change b.keys.dropWhile _ = _
  generalize b.keys = ks at hsorted ⊢
  induction ks with
  | nil => rfl
  | cons x rest ih =>
    obtain ⟨hfirst, hrest⟩ := pairwise_cons.mp hsorted
    by_cases hlevel : x.2 < level
    · -- All further out are shallower still, so none is left out.
      have hall : ∀ y ∈ x :: rest, decide (y.2 < level) := by
        intro y hy
        rcases mem_cons.mp hy with rfl | hy
        · exact decide_eq_true hlevel
        · exact decide_eq_true (Int.lt_trans (hfirst y hy) hlevel)
      rw [filter_eq_self.mpr hall, dropWhile_cons_of_neg (by simp [hlevel])]
    · rw [dropWhile_cons_of_pos (by simp [hlevel]), filter_cons_of_neg (by simp [hlevel]), ih hrest]

theorem keys_push (b : Nest α) (n : Node α) : (b.push n).keys = b.keys := by
  rcases b with ⟨_ | ⟨l, rest⟩, outer⟩ <;> rfl

theorem keys_openLoop (b : Nest α) (level : Int) (origin : α) (args : Value) :
    (b.openLoop level origin args).keys = (origin, level) :: b.keys :=
  rfl

end Nest

/-! ### Runs at the end of a list -/

namespace Node

def goesOn (n : Node α) : Bool := !n.isLoop && !n.isReturn

/-- The repetition that takes in what comes next, nodes last first. -/
def waiting : List (Node α) → Option α
  | [] => none
  | line s :: ns => if isReturn (line s) then none else waiting ns
  | loop origin _ block :: _ => if block.isEmpty then some origin else none

theorem runOf_append (ms ks : List (Node α)) :
    runOf (ms ++ ks) = if ms.all goesOn then ms ++ runOf ks else runOf ms := by
  induction ms with
  | nil => rfl
  | cons n ms ih =>
    cases n with
    | line s =>
      rw [cons_append, runOf, runOf, all_cons, ih, goesOn]
      cases isReturn (line s) <;> cases hall : ms.all goesOn <;> simp [isLoop]
    | loop origin args block => rfl

theorem runOf_eq_self {ms : List (Node α)} (h : ms.all goesOn) : runOf ms = ms := by
  have hself := runOf_append ms []
  rw [if_pos h, append_nil] at hself
  exact hself.trans (append_nil ms)

theorem waiting_append (ms ks : List (Node α)) :
    waiting (ms ++ ks) = if ms.all goesOn then waiting ks else waiting ms := by
  induction ms with
  | nil => rfl
  | cons n ms ih =>
    cases n with
    | line s =>
      rw [cons_append, waiting, waiting, all_cons, ih, goesOn]
      cases isReturn (line s) <;> cases hall : ms.all goesOn <;> simp [isLoop]
    | loop origin args block => rfl

theorem mem_taken_snoc_line (n : Node α) (ms : List (Node α)) (s : Statement α) (i j : α) :
    (i, j) ∈ taken n (ms ++ [line s]) ↔ (i, j) ∈ taken n ms ∨
      (ms.all goesOn ∧ waiting [n] = some i ∧ j = s.origin) := by
  rcases n with t | ⟨origin, args, _ | ⟨m, block⟩⟩
  · simp [taken, waiting]
  · have hone : originsOf (runOf [line s]) = [s.origin] := by
      cases hreturn : isReturn (line s) <;> simp [runOf, hreturn, originsOf, entriesOf, entries,
        Entry.origin]
    rw [taken, taken, runOf_append]
    cases hall : ms.all goesOn with
    | false => simp
    | true =>
      rw [if_pos rfl, runOf_eq_self hall, originsOf_append, hone, map_append, mem_append]
      simp [waiting, eq_comm]
  · simp [taken, waiting]

theorem mem_fillPairs_snoc_line (ms : List (Node α)) (s : Statement α) (i j : α) :
    (i, j) ∈ fillPairs (ms ++ [line s]) ↔
      (i, j) ∈ fillPairs ms ∨ (waiting ms.reverse = some i ∧ j = s.origin) := by
  induction ms with
  | nil => simp [fillPairs, taken, innerFills, waiting]
  | cons n ms ih =>
    have hwaiting : waiting (n :: ms).reverse
        = if ms.all goesOn then waiting [n] else waiting ms.reverse := by
      rw [reverse_cons, waiting_append, all_reverse]
    have hall : ms.all goesOn → waiting ms.reverse = none := by
      intro h
      have := waiting_append ms.reverse []
      rwa [append_nil, all_reverse, if_pos h] at this
    rw [cons_append, fillPairs, fillPairs, hwaiting]
    simp only [mem_append, mem_taken_snoc_line, ih]
    -- Either the first node waits or one of the others does, never both.
    by_cases h : ms.all goesOn = true
    · simp only [h, hall h, if_true]
      grind
    · simp only [h]
      grind

theorem fillPairs_append (ms : List (Node α)) {ks : List (Node α)} (h : runOf ks = []) :
    fillPairs (ms ++ ks) = fillPairs ms ++ fillPairs ks := by
  have hrun : ∀ ms : List (Node α), runOf (ms ++ ks) = runOf ms := by
    intro ms
    rw [runOf_append, h, append_nil]
    split
    · rename_i hall
      exact (runOf_eq_self hall).symm
    · rfl
  induction ms with
  | nil => rfl
  | cons n ms ih =>
    have htaken : taken n (ms ++ ks) = taken n ms := by
      match n with
      | line t => rfl
      | loop origin args (m :: block) => rfl
      | loop origin args [] => rw [taken, taken, hrun]
    rw [cons_append, fillPairs, fillPairs, htaken, ih, append_assoc, append_assoc]

theorem fillPairs_loop (origin : α) (args : Value) (block : List (Node α)) :
    fillPairs [loop origin args block] = fillPairs block := by
  have htaken : taken (loop origin args block) [] = [] := by
    cases block <;> rfl
  rw [fillPairs, htaken, innerFills, fillPairs, append_nil, nil_append]

end Node

namespace Nest

/-- What the empty repetitions of a nest take in so far. -/
def Fills (b : Nest α) (i j : α) : Prop :=
  (i, j) ∈ fillPairs b.outer.reverse ∨ ∃ l ∈ b.loops, (i, j) ∈ fillPairs l.nodes.reverse

/-- The repetition that takes in what comes next, at the end of the innermost list. -/
def waiting (b : Nest α) : Option α := match b.loops with
  | l :: _ => Node.waiting l.nodes
  | [] => Node.waiting b.outer

theorem fills_closeWhile {inner : List (Node α)} (outer : List (Node α))
    (loops : List (OpenNode α)) (hinner : runOf inner.reverse = []) (i j : α) :
    (closeWhile stays inner outer loops).Fills i j ↔
      (i, j) ∈ fillPairs outer.reverse ∨ (∃ l ∈ loops, (i, j) ∈ fillPairs l.nodes.reverse) ∨
        (i, j) ∈ fillPairs inner.reverse := by
  induction loops generalizing inner with
  | nil => simp [closeWhile, Fills, fillPairs_append _ hinner]
  | cons l rest ih =>
    rw [closeWhile]
    split
    · simp only [Fills, mem_cons, exists_eq_or_imp, reverse_append,
        fillPairs_append _ hinner, mem_append]
      grind
    · -- A list that ends in a repetition starts no run, so the hypothesis holds again.
      rw [ih rfl]
      simp only [reverse_singleton, OpenNode.close, fillPairs_loop, reverse_append,
        fillPairs_append _ hinner, mem_append, mem_cons, exists_eq_or_imp]
      grind

theorem fills_leave (b : Nest α) (level : Int) (i j : α) :
    (b.leave level).Fills i j ↔ b.Fills i j := by
  rw [leave, fills_closeWhile _ _ _ rfl, Fills]
  simp [fillPairs]

theorem fills_push (b : Nest α) (s : Statement α) (i j : α) :
    (b.push (.line s)).Fills i j ↔ b.Fills i j ∨ (b.waiting = some i ∧ j = s.origin) := by
  rcases b with ⟨_ | ⟨l, rest⟩, outer⟩
  · simp [push, Fills, waiting, mem_fillPairs_snoc_line]
  · simp only [push, Fills, waiting, mem_cons, exists_eq_or_imp, reverse_cons,
      mem_fillPairs_snoc_line, reverse_reverse]
    grind

theorem fills_openLoop (b : Nest α) (level : Int) (origin : α) (args : Value) (i j : α) :
    (b.openLoop level origin args).Fills i j ↔ b.Fills i j := by
  simp [openLoop, Fills, fillPairs]

theorem waiting_push (b : Nest α) (s : Statement α) :
    (b.push (.line s)).waiting = if isReturn (.line s) then none else b.waiting := by
  rcases b with ⟨_ | ⟨l, rest⟩, outer⟩ <;> rfl

theorem nodes_push_ne_nil {n : Node α} (h : (b.push n).loops = l :: rest) : l.nodes ≠ [] := by
  rcases b with ⟨_ | ⟨m, ms⟩, outer⟩
  · exact absurd h.symm (cons_ne_nil l rest)
  · rw [← (List.cons.inj h).1]
    exact cons_ne_nil _ _

/-! ### Closing repetitions -/

theorem leave_of_lt (h : ∀ l rest, b.loops = l :: rest → l.level < level) : b.leave level = b := by
  rcases b with ⟨_ | ⟨l, rest⟩, outer⟩
  · rfl
  · rw [leave, closeWhile, if_pos (decide_eq_true (h l rest rfl))]
    rfl

theorem leave_one {outer : List (Node α)} (hl : ¬l.level < level)
    (hrest : ∀ m ms, rest = m :: ms → m.level < level) :
    (⟨l :: rest, outer⟩ : Nest α).leave level = push ⟨rest, outer⟩ (l.close []) := by
  rw [leave, closeWhile, if_neg (by simpa using hl)]
  cases rest with
  | nil => rfl
  | cons m ms =>
    rw [closeWhile, if_pos (decide_eq_true (hrest m ms rfl))]
    rfl

theorem waiting_push_loop (b : Nest α) (origin : α) (args : Value) (block : List (Node α)) :
    (b.push (.loop origin args block)).waiting = if block.isEmpty then some origin else none := by
  rcases b with ⟨_ | ⟨l, rest⟩, outer⟩ <;> rfl

theorem waiting_closeWhile (outer : List (Node α)) (origin : α) (args : Value)
    {block : List (Node α)} (hblock : block ≠ []) (loops : List (OpenNode α)) :
    (closeWhile stays [.loop origin args block] outer loops).waiting = none := by
  have hempty : block.isEmpty = false := by simpa using hblock
  induction loops generalizing origin args block with
  | nil => exact if_neg (by simp [hempty])
  | cons l rest ih =>
    rw [closeWhile]
    split
    · exact if_neg (by simp [hempty])
    · exact ih _ _ (by simp) (by simp)

theorem waiting_leave_of_full {outer : List (Node α)} (hl : ¬l.level < level)
    (hnodes : l.nodes ≠ []) : ((⟨l :: rest, outer⟩ : Nest α).leave level).waiting = none := by
  rw [leave, closeWhile, if_neg (by simpa using hl)]
  exact waiting_closeWhile _ _ _ _ (by simpa using hnodes) rest

end Nest

end Loom.Flow
