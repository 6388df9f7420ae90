import Loom.Expr.Parser
import Mathlib.Data.List.Forall2

/-!
# Precedence and Associativity

The parser reads back whatever is written by the rules of the language: each
operator has a rank, operators of one rank group to the left, ranges group to the
right, and parentheses stand where these rules would group otherwise.

The rules are stated here on their own, as ranks from one to eight, and not by
the binding powers that the parser compares. `Renders k e ts` says that `ts` is a
way of writing `e` in a place where an operator of a rank below `k` has to stand
in parentheses. Parentheses may be added around any part, so a tree has many such
ways; `render` is the one with no pair too many.

What makes the induction go through is that the parser does not stop after a tree
it has read: it goes on with the infix operators that follow. So the lemma is not
that a rendering is read as its tree, but that reading it leads to the loop with
that tree on the left (`Reads`). The tokens that follow have to let it: an
operator after the tree must not reach into it, which is the case if it asks no
more of its left side than the place of the tree guarantees (`Yields`).

An expression in parentheses ends at the first sign that no expression goes on with. So an
opening parenthesis passes for a closing one, and the lemma says this too.
-/

namespace Loom

open List

variable {k own p : Nat} {e : Expr} {ts ws rest : List Token} {t w : Token} {i : Joint}

namespace BinaryOp

/-- How tightly an operator binds. Ranges come between comparisons and sums. -/
def rank : BinaryOp → Nat
  | or => 1
  | and => 2
  | eq | ne => 3
  | lt | le | gt | ge => 4
  | add | sub => 6
  | mul | div => 7

/-- The token that an operator is written as. -/
def token : BinaryOp → Expr.Token
  | or => .keyword .or
  | and => .keyword .and
  | eq => .sign .eq
  | ne => .sign .ne
  | lt => .sign .lt
  | le => .sign .le
  | gt => .sign .gt
  | ge => .sign .ge
  | add => .sign .add
  | sub => .sign .sub
  | mul => .sign .mul
  | div => .sign .div

end BinaryOp

def UnaryOp.token : UnaryOp → Expr.Token
  | not => .keyword .not
  | plus => .sign .add
  | minus => .sign .sub

namespace Expr

def rangeRank : Nat := 5

def prefixRank : Nat := 8

def boolToken (b : Bool) : Token := .keyword (if b then .true else .false)

/-- A way of writing an expression where only operators of rank `k` and above may
    stand without parentheses. The left side of an operator needs its rank and
    the right side more than that, of a range the other way round. -/
inductive Renders : Nat → Expr → List Token → Prop where
  | number (k : Nat) (n : Number) : Renders k (.number n) [.number n]
  | text (k : Nat) (s : String) : Renders k (.text s) [.text s]
  | bool (k : Nat) (b : Bool) : Renders k (.bool b) [boolToken b]
  | name (k : Nat) (s : String) : Renders k (.name s) [.name s]
  | unary {k : Nat} {op : UnaryOp} {e : Expr} {ts : List Token} (hk : k ≤ prefixRank)
      (he : Renders prefixRank e ts) : Renders k (.unary op e) (op.token :: ts)
  | binary {k : Nat} {op : BinaryOp} {l r : Expr} {ls rs : List Token} (hk : k ≤ op.rank)
      (hl : Renders op.rank l ls) (hr : Renders (op.rank + 1) r rs) :
      Renders k (.binary op l r) (ls ++ op.token :: rs)
  | range {k : Nat} {a b : Expr} {as bs : List Token} (hk : k ≤ rangeRank)
      (ha : Renders (rangeRank + 1) a as) (hb : Renders rangeRank b bs) :
      Renders k (.range a b) (as ++ .sign .dots :: bs)
  /-- Parentheses may stand around anything. -/
  | parens {k : Nat} {e : Expr} {ts : List Token} (he : Renders 0 e ts) :
      Renders k e (.sign .opening :: (ts ++ [.sign .closing]))

def parensIf (needed : Bool) (ts : List Token) : List Token :=
  if needed then .sign .opening :: (ts ++ [.sign .closing]) else ts

/-- The tokens of an expression, with parentheses only where a rank below `k`
    needs them. -/
def render (k : Nat) (e : Expr) : List Token := match e with
  | number n => [.number n]
  | text s => [.text s]
  | bool b => [boolToken b]
  | name s => [.name s]
  | unary op e => parensIf (prefixRank < k) (op.token :: render prefixRank e)
  | binary op l r =>
    parensIf (op.rank < k) (render op.rank l ++ op.token :: render (op.rank + 1) r)
  | range a b =>
    parensIf (rangeRank < k) (render (rangeRank + 1) a ++ .sign .dots :: render rangeRank b)

theorem renders_parensIf {rank : Nat} (h : ∀ j, j ≤ rank → Renders j e ts) :
    Renders k e (parensIf (rank < k) ts) := by
  by_cases hlt : rank < k
  · simp only [parensIf, hlt, decide_true, if_true]
    exact .parens (h 0 (Nat.zero_le _))
  · simp only [parensIf, hlt, decide_false, Bool.false_eq_true, if_false]
    exact h k (by omega)

theorem renders_render (e : Expr) : ∀ k, Renders k e (render k e) := by
  induction e with
  | number n => exact fun k => .number k n
  | text s => exact fun k => .text k s
  | bool b => exact fun k => .bool k b
  | name s => exact fun k => .name k s
  | unary op e ih => exact fun k => renders_parensIf fun j hj => .unary hj (ih _)
  | binary op l r ihl ihr => exact fun k => renders_parensIf fun j hj => .binary hj (ihl _) (ihr _)
  | range a b iha ihb => exact fun k => renders_parensIf fun j hj => .range hj (iha _) (ihb _)

/-! ### Parentheses -/

/-- An opening parenthesis passes for a closing one. -/
def PassesFor (t w : Token) : Prop := t = w ∨ t = .sign .opening ∧ w = .sign .closing

theorem passesFor_refl (ts : List Token) : List.Forall₂ PassesFor ts ts :=
  forall₂_same.mpr fun _ _ => .inl rfl

theorem exists_of_passing_cons (h : List.Forall₂ PassesFor ts (w :: ws)) (hw : w ≠ .sign .closing) :
    ∃ us, ts = w :: us ∧ List.Forall₂ PassesFor us ws := by
  obtain ⟨t, us, rfl | ⟨_, hclosing⟩, hus, rfl⟩ := forall₂_cons_right_iff.mp h
  · exact ⟨us, rfl, hus⟩
  · exact absurd hclosing hw

theorem eq_of_passing_singleton (h : List.Forall₂ PassesFor ts [w]) (hw : w ≠ .sign .closing) :
    ts = [w] := by
  obtain ⟨us, rfl, hus⟩ := exists_of_passing_cons h hw
  cases hus
  rfl

theorem exists_of_passing_append {xs : List Token} (h : List.Forall₂ PassesFor ts (xs ++ ws)) :
    ∃ us vs, ts = us ++ vs ∧ List.Forall₂ PassesFor us xs ∧ List.Forall₂ PassesFor vs ws :=
  ⟨_, _, (take_append_drop _ _).symm, forall₂_take_append _ _ _ h, forall₂_drop_append _ _ _ h⟩

/-! ### Ranks and binding powers -/

/-- The binding power that a rank stands for. -/
def power : Nat → Nat
  | 0 => 0
  | 1 => 10
  | 2 => 20
  | 3 => 30
  | 4 => 40
  | 5 => 45
  | 6 => 50
  | 7 => 60
  | _ => prefixPower

theorem power_succ_le : ∀ k, power k ≤ power (k + 1)
  | 0 | 1 | 2 | 3 | 4 | 5 | 6 | 7 => by decide
  | _ + 8 => Nat.le_refl _

theorem power_mono {j : Nat} (h : j ≤ k) : power j ≤ power k := by
  induction h with
  | refl => exact Nat.le_refl _
  | step _ ih => exact Nat.le_trans ih (power_succ_le _)

theorem power_rank_lt (op : BinaryOp) : power op.rank + 1 ≤ power (op.rank + 1) := by
  cases op <;> decide

theorem power_rank_ne_range (op : BinaryOp) : power op.rank ≠ power rangeRank := by
  cases op <;> decide

theorem joint?_token (op : BinaryOp) : joint? op.token = some (.operator op, power op.rank) := by
  cases op <;> rfl

theorem joint?_eq_some (h : joint? t = some (i, own)) :
    (∃ op, i = .operator op ∧ own = power op.rank) ∨ (i = .range ∧ own = power rangeRank) := by
  unfold joint? at h
  split at h
  all_goals first
    | (obtain ⟨rfl, rfl⟩ := h; exact Or.inl ⟨_, rfl, rfl⟩)
    | (obtain ⟨rfl, rfl⟩ := h; exact Or.inr ⟨rfl, rfl⟩)
    | cases h

/-! ### What may follow -/

/-- What an infix operator asks of its left side. -/
def Joint.leftPower (i : Joint) (power : Nat) : Nat := match i with
  | operator _ => power
  | range => power + 1

/-- The tokens after a place of rank `k` do not reach into it: an infix operator
    that comes next asks of its left side no more than the place guarantees. -/
def Yields (k : Nat) (rest : List Token) : Prop :=
  ∀ t ts i own, rest = t :: ts → joint? t = some (i, own) → i.leftPower own ≤ power k

/-- No infix operator that binds as tightly as `p` comes next. -/
def Stops (p : Nat) (rest : List Token) : Prop :=
  ∀ t ts i own, rest = t :: ts → joint? t = some (i, own) → own < p

theorem yields_nil (k : Nat) : Yields k [] := by
  intro t ts i own h
  exact absurd h.symm (cons_ne_nil t ts)

theorem yields_of_joint?_eq_none (h : joint? t = none) (k : Nat) (rest : List Token) :
    Yields k (t :: rest) := by
  intro t' ts i own heq hj
  obtain ⟨rfl, rfl⟩ := List.cons.inj heq
  rw [h] at hj
  cases hj

theorem stops_nil (p : Nat) : Stops p [] := by
  intro t ts i own h
  exact absurd h.symm (cons_ne_nil t ts)

theorem stops_of_joint?_eq_none (h : joint? t = none) (p : Nat) (rest : List Token) :
    Stops p (t :: rest) := by
  intro t' ts i own heq hj
  obtain ⟨rfl, rfl⟩ := List.cons.inj heq
  rw [h] at hj
  cases hj

theorem Yields.mono {j : Nat} (h : Yields j rest) (hjk : j ≤ k) : Yields k rest :=
  fun t ts i own hr hj => Nat.le_trans (h t ts i own hr hj) (power_mono hjk)

theorem yields_prefixRank (rest : List Token) : Yields prefixRank rest := by
  intro t ts i own _ hj
  rcases joint?_eq_some hj with ⟨op, rfl, rfl⟩ | ⟨rfl, rfl⟩
  · cases op <;> decide
  · decide

theorem stops_prefixPower (rest : List Token) : Stops prefixPower rest := by
  intro t ts i own _ hj
  rcases joint?_eq_some hj with ⟨op, _, rfl⟩ | ⟨_, rfl⟩
  · cases op <;> decide
  · decide

theorem Yields.stops_operator {op : BinaryOp} (h : Yields k rest) (hk : k ≤ op.rank) :
    Stops (power op.rank + 1) rest := by
  intro t ts i own hr hj
  have hle := Nat.le_trans (h t ts i own hr hj) (power_mono hk)
  cases i with
  | operator _ | range =>
    simp only [Joint.leftPower] at hle
    omega

theorem Yields.stops_range (h : Yields k rest) (hk : k ≤ rangeRank) :
    Stops (power rangeRank) rest := by
  intro t ts i own hr hj
  have hle := Nat.le_trans (h t ts i own hr hj) (power_mono hk)
  rcases joint?_eq_some hj with ⟨op, rfl, rfl⟩ | ⟨rfl, rfl⟩
  · simp only [Joint.leftPower] at hle
    have := power_rank_ne_range op
    omega
  · simp only [Joint.leftPower] at hle
    omega

/-! ### Reading -/

theorem parseJoints_of_stops (h : Stops p rest) (fuel : Nat) (e : Expr) :
    parseJoints fuel p e rest = .ok (e, rest) := by
  cases fuel with
  | zero => simp only [parseJoints]
  | succ fuel =>
    cases rest with
    | nil => simp only [parseJoints]
    | cons t ts =>
      simp only [parseJoints]
      cases hj : joint? t with
      | none => rfl
      | some r =>
        rcases r with ⟨i, own⟩
        simp only [if_pos (h t ts i own rfl hj)]

theorem parsePower_of_operand {fuel : Nat} (h : parseOperand fuel ts = .ok (e, rest)) :
    parsePower (fuel + 1) p ts = parseJoints fuel p e rest := by
  simp only [parsePower, h]
  rfl

theorem parseJoints_of_right {fuel : Nat} {l r : Expr} (hj : joint? t = some (i, own))
    (hp : p ≤ own) (hr : parsePower fuel (i.rightPower own) ts = .ok (r, rest)) :
    parseJoints (fuel + 1) p l (t :: ts) = parseJoints fuel p (i.join l r) rest := by
  simp only [parseJoints, hj, if_neg (Nat.not_lt.mpr hp), hr]
  rfl

/-- Reading tokens in a place of rank `k` leads to the loop with an expression on
    the left. Two units of fuel for each token suffice, and at most one for each is
    used up on the way. -/
def Reads (k : Nat) (e : Expr) (ts : List Token) : Prop :=
  ∀ (fuel p : Nat) (rest : List Token), 2 * ts.length ≤ fuel → p ≤ power k → Yields k rest →
    ∃ left, fuel ≤ left + ts.length ∧ parsePower fuel p (ts ++ rest) = parseJoints left p e rest

theorem reads_operand (h : ∀ (fuel : Nat) (rest : List Token), 2 * ts.length ≤ fuel →
      parseOperand (fuel + 1) (t :: ts ++ rest) = .ok (e, rest)) : Reads k e (t :: ts) := by
  intro fuel p rest hfuel _ _
  rw [length_cons] at hfuel
  obtain ⟨f, rfl⟩ : ∃ f, fuel = f + 2 := ⟨fuel - 2, by omega⟩
  refine ⟨f + 1, ?_, parsePower_of_operand (h f rest (by omega))⟩
  rw [length_cons]
  omega

theorem Reads.parsePower (h : Reads k e ts) (fuel p : Nat) (hfuel : 2 * ts.length ≤ fuel)
    (hp : p ≤ power k) (hyields : Yields k rest) (hstops : Stops p rest) :
    parsePower fuel p (ts ++ rest) = .ok (e, rest) := by
  rcases h fuel p rest hfuel hp hyields with ⟨left, _, hread⟩
  rw [hread]
  exact parseJoints_of_stops hstops left e

/-- Two sides joined by an infix operator. The left side is in a place that the
    operator yields to, and what follows stops the right side. -/
theorem reads_joint {kl kr : Nat} {l r : Expr} {ls rs : List Token} (hj : joint? t = some (i, own))
    (hk : power k ≤ own) (hleft : i.leftPower own ≤ power kl) (hright : i.rightPower own ≤ power kr)
    (hrest : ∀ rest, Yields k rest → Yields kr rest ∧ Stops (i.rightPower own) rest)
    (hl : Reads kl l ls) (hr : Reads kr r rs) : Reads k (i.join l r) (ls ++ t :: rs) := by
  intro fuel p rest hfuel hp hyields
  rw [length_append, length_cons] at hfuel ⊢
  have hown : own ≤ i.leftPower own := by
    cases i
    · exact Nat.le_refl _
    · exact Nat.le_succ _
  have hyl : Yields kl (t :: (rs ++ rest)) := by
    intro t' ts' i' own' h hj'
    obtain ⟨rfl, rfl⟩ := List.cons.inj h
    rw [hj] at hj'
    obtain ⟨rfl, rfl⟩ := hj'
    exact hleft
  rcases hl fuel p (t :: (rs ++ rest)) (by omega) (by omega) hyl with ⟨left, hfl, hreadl⟩
  rcases hrest rest hyields with ⟨hyr, hstops⟩
  obtain ⟨f, rfl⟩ : ∃ f, left = f + 1 := ⟨left - 1, by omega⟩
  have hreadr := hr.parsePower f _ (by omega) hright hyr hstops
  refine ⟨f, by omega, ?_⟩
  rw [append_assoc, cons_append, hreadl]
  exact parseJoints_of_right hj (by omega) hreadr

theorem reads_of_passing (h : Renders k e ws) (hts : List.Forall₂ PassesFor ts ws) :
    Reads k e ts := by
  induction h generalizing ts with
  | number k n | text k s =>
    obtain rfl := eq_of_passing_singleton hts nofun
    exact reads_operand fun _ _ _ => rfl
  | bool k b =>
    obtain rfl := eq_of_passing_singleton hts (by cases b <;> nofun)
    exact reads_operand fun _ _ _ => by cases b <;> rfl
  | name k s =>
    obtain rfl := eq_of_passing_singleton hts nofun
    exact reads_operand fun _ _ _ => rfl
  | @unary k op e ws _ _ ih =>
    obtain ⟨us, rfl, hus⟩ := exists_of_passing_cons hts (by cases op <;> nofun)
    refine reads_operand (fun fuel rest hfuel => ?_)
    -- no infix operator binds as tightly as the operand asks, so it ends at once
    have hread := (ih hus).parsePower fuel prefixPower hfuel (Nat.le_refl _)
      (yields_prefixRank rest) (stops_prefixPower rest)
    cases op <;>
      simp only [UnaryOp.token, cons_append, parseOperand, unaryOp?, hread] <;> rfl
  | @binary k op l r ls rs hk _ _ ihl ihr =>
    obtain ⟨us, _, rfl, hus, hvs⟩ := exists_of_passing_append hts
    obtain ⟨vs, rfl, hright⟩ := exists_of_passing_cons hvs (by cases op <;> nofun)
    refine reads_joint (i := .operator op) (joint?_token op) (power_mono hk) (Nat.le_refl _)
      (power_rank_lt op) (fun rest hrest => ?_) (ihl hus) (ihr hright)
    exact ⟨hrest.mono (by omega), hrest.stops_operator hk⟩
  | @range k a b as bs hk _ _ iha ihb =>
    obtain ⟨us, _, rfl, hus, hvs⟩ := exists_of_passing_append hts
    obtain ⟨vs, rfl, hright⟩ := exists_of_passing_cons hvs nofun
    refine reads_joint (i := .range) (t := .sign .dots) rfl (power_mono hk) (by decide)
      (Nat.le_refl _) (fun rest hrest => ?_) (iha hus) (ihb hright)
    exact ⟨hrest.mono hk, hrest.stops_range hk⟩
  | @parens k e ws _ ih =>
    obtain ⟨_, rfl, hrest⟩ := exists_of_passing_cons hts nofun
    obtain ⟨us, _, rfl, hus, hvs⟩ := exists_of_passing_append hrest
    obtain ⟨t, _, ht, hnil, rfl⟩ := forall₂_cons_right_iff.mp hvs
    cases hnil
    refine reads_operand (fun fuel rest hfuel => ?_)
    rw [length_append] at hfuel
    obtain ⟨s, rfl, hs⟩ : ∃ s, t = .sign s ∧ joint? (.sign s) = none := by
      rcases ht with rfl | ⟨rfl, _⟩ <;> exact ⟨_, rfl, rfl⟩
    have hread := (ih hus).parsePower fuel 0 (by omega) (Nat.zero_le _)
      (yields_of_joint?_eq_none hs 0 rest) (stops_of_joint?_eq_none hs 0 rest)
    simp only [cons_append, append_assoc, nil_append, parseOperand, hread]
    rfl

theorem parseTokens_of_passing (h : Renders 0 e ws) (hts : List.Forall₂ PassesFor ts ws) :
    parseTokens ts = .ok e := by
  have hread := (reads_of_passing h hts).parsePower (3 * ts.length + 3) 0 (by omega)
    (Nat.zero_le _) (yields_nil 0) (stops_nil 0)
  rw [append_nil] at hread
  simp only [parseTokens, hread]
  rfl

/-- An expression written by the rules is read as that expression, with whatever
    parentheses were added; and every expression can be written. -/
theorem parseTokens_of_renders (e : Expr) :
    Renders 0 e (render 0 e) ∧ ∀ ts, Renders 0 e ts → parseTokens ts = .ok e :=
  ⟨renders_render e 0, fun ts h => parseTokens_of_passing h (passesFor_refl ts)⟩

/-- `(1 + 2) * -(x)..(3)`: the first parentheses are needed, the others are not. -/
theorem parseTokens_of_renders_range :
    parseTokens [.sign .opening, .number (.int 1), .sign .add, .number (.int 2), .sign .closing,
        .sign .mul, .sign .sub, .sign .opening, .name "x", .sign .closing, .sign .dots,
        .sign .opening, .number (.int 3), .sign .closing] =
      .ok (.range (.binary .mul (.binary .add (.number (.int 1)) (.number (.int 2)))
        (.unary .minus (.name "x"))) (.number (.int 3))) := by
  refine (parseTokens_of_renders _).2 _ ?_
  have hsum : Renders 0 (.binary .add (.number (.int 1)) (.number (.int 2)))
      [.number (.int 1), .sign .add, .number (.int 2)] :=
    .binary (Nat.zero_le _) (.number _ _) (.number _ _)
  exact .range (Nat.zero_le _)
    (.binary (by decide) (.parens hsum) (.unary (by decide) (.parens (.name _ _))))
    (.parens (.number _ _))

end Expr

end Loom
