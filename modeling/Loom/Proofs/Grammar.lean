import Loom.Proofs.Fields
import Loom.Proofs.Precedence

/-!
# What the Parser Accepts

The parser accepts what is written by the rules of the language, and what looks like it but for
parentheses: an expression in parentheses ends at the first sign that no expression goes on with,
and that is a parenthesis of either kind. So `(1(` is read as `(1)` is.

An expression that the parser has read ends where no operator binds as tightly as was asked for.
This is what the next operator may build on: it does not bind more tightly than the one before, so
what has been read may stand on its left as it is (`leftRank_le`).
-/

namespace Loom.Expr

open List

variable {k own own' p : Nat} {e : Expr} {ts us ws rest : List Token} {t : Token} {i j : Joint}

def isSign (s : Sign) : Token → Bool
  | .sign r => r == s
  | _ => false

/-! ### Ranks around an operator -/

namespace Joint

def rank : Joint → Nat
  | operator op => op.rank
  | range => rangeRank

def leftRank : Joint → Nat
  | operator op => op.rank
  | range => rangeRank + 1

def rightRank : Joint → Nat
  | operator op => op.rank + 1
  | range => rangeRank

def token : Joint → Token
  | operator op => op.token
  | range => .sign .dots

end Joint

theorem eq_token_of_joint? (h : joint? t = some (i, own)) : t = i.token ∧ own = power i.rank := by
  unfold joint? at h
  split at h
  all_goals first
    | (obtain ⟨rfl, rfl⟩ := h; exact ⟨rfl, rfl⟩)
    | cases h

theorem renders_join {l r : Expr} {ls rs : List Token} (hk : k ≤ i.rank)
    (hl : Renders i.leftRank l ls) (hr : Renders i.rightRank r rs) :
    Renders k (i.join l r) (ls ++ i.token :: rs) := by
  cases i with
  | operator op => exact .binary hk hl hr
  | range => exact .range hk hl hr

theorem lt_of_power_lt {j : Nat} (h : power j < power k) : j < k :=
  Nat.lt_of_not_le fun hle => Nat.not_lt.mpr (power_mono hle) h

/-- A place that asks for a binding power admits operators from a rank on. -/
def Admits (p k : Nat) : Prop := k ≤ prefixRank ∧ ∀ r, p ≤ power r → k ≤ r

theorem admits_right (h : own = power i.rank) : Admits (i.rightPower own) i.rightRank := by
  subst h
  cases i with
  | operator op =>
    exact ⟨by cases op <;> decide, fun r hr => lt_of_power_lt hr⟩
  | range => exact ⟨by decide, fun r hr => lt_of_power_lt (j := 4) (Nat.lt_of_lt_of_le (by decide) hr)⟩

theorem admits_prefix : Admits prefixPower prefixRank :=
  ⟨Nat.le_refl _, fun _ hr => lt_of_power_lt (j := 7) (Nat.lt_of_lt_of_le (by decide) hr)⟩

theorem leftRank_le_prefixRank (i : Joint) : i.leftRank ≤ prefixRank := by
  cases i with
  | operator op => cases op <;> decide
  | range => decide

theorem leftRank_le (hi : own = power i.rank) (hj : own' = power j.rank)
    (h : own' < i.rightPower own) : j.leftRank ≤ i.rank := by
  subst hi hj
  cases i with
  | operator op =>
    cases j with
    | operator op' =>
      refine Nat.le_of_not_lt fun hlt => ?_
      exact Nat.not_lt.mpr (Nat.le_trans (power_rank_lt op) (power_mono hlt)) h
    | range =>
      revert h
      cases op <;> decide
  | range =>
    cases j with
    | operator op' => exact Nat.le_of_lt (lt_of_power_lt (k := rangeRank) h)
    | range => exact absurd h (Nat.lt_irrefl _)

/-! ### What is read -/

/-- Tokens up to some rest pass for some that an expression is written with. -/
def Took (k : Nat) (e : Expr) (ts rest : List Token) : Prop :=
  ∃ us ws, ts = us ++ rest ∧ List.Forall₂ PassesFor us ws ∧ Renders k e ws

theorem took_of_renders (h : Renders k e us) (rest : List Token) : Took k e (us ++ rest) rest :=
  ⟨us, us, rfl, passesFor_refl us, h⟩

theorem Renders.ne_nil (h : Renders k e ts) : ts ≠ [] := by
  cases h with
  | binary _ _ _ | range _ _ _ => exact append_ne_nil_of_right_ne_nil _ (cons_ne_nil _ _)
  | _ => exact cons_ne_nil _ _

theorem Took.length_lt (h : Took k e ts rest) : rest.length < ts.length := by
  obtain ⟨us, ws, rfl, hpass, hws⟩ := h
  rw [length_append, hpass.length_eq]
  have := length_pos_of_ne_nil hws.ne_nil
  omega

theorem Took.join {l r : Expr} (hk : k ≤ i.rank) (hl : Took i.leftRank l us (i.token :: ts))
    (hr : Took i.rightRank r ts rest) : Took k (i.join l r) us rest := by
  obtain ⟨ls, ws, rfl, hls, hl⟩ := hl
  obtain ⟨rs, vs, rfl, hrs, hr⟩ := hr
  refine ⟨ls ++ i.token :: rs, _, ?_, rel_append hls (.cons (.inl rfl) hrs), renders_join hk hl hr⟩
  rw [append_assoc, cons_append]

theorem Took.parens {s : Sign} (hs : s = .opening ∨ s = .closing)
    (h : Took 0 e ts (.sign s :: rest)) : Took k e (.sign .opening :: ts) rest := by
  obtain ⟨us, ws, rfl, hus, hws⟩ := h
  have hpass : PassesFor (.sign s) (.sign .closing) := by
    rcases hs with rfl | rfl
    · exact .inr ⟨rfl, rfl⟩
    · exact .inl rfl
  refine ⟨.sign .opening :: (us ++ [.sign s]), _, ?_,
    .cons (.inl rfl) (rel_append hus (.cons hpass .nil)), .parens hws⟩
  rw [cons_append, append_assoc, singleton_append]

theorem Took.unary {op : UnaryOp} (hk : k ≤ prefixRank) (hop : unaryOp? t = some op)
    (h : Took prefixRank e ts rest) : Took k (.unary op e) (t :: ts) rest := by
  obtain ⟨us, ws, rfl, hus, hws⟩ := h
  have ht : t = op.token := by
    unfold unaryOp? at hop
    split at hop <;> cases hop <;> rfl
  subst ht
  exact ⟨_ :: us, _, rfl, .cons (.inl rfl) hus, .unary hk hws⟩

theorem eq_parenthesis_of_stops {s : Sign} (h : Stops 0 (.sign s :: rest)) :
    s = .opening ∨ s = .closing := by
  cases s
  case opening => exact .inl rfl
  case closing => exact .inr rfl
  all_goals exact absurd (h _ _ _ _ rfl rfl) (Nat.not_lt_zero _)

theorem parse_sound (fuel : Nat) : (∀ {p k ts e rest}, Admits p k → 2 * ts.length ≤ fuel →
      parsePower fuel p ts = .ok (e, rest) → Took k e ts rest ∧ Stops p rest) ∧
    (∀ {k ts e rest}, k ≤ prefixRank → 2 * ts.length ≤ fuel + 1 →
      parseOperand fuel ts = .ok (e, rest) → Took k e ts rest) ∧
    ∀ {p k us l ts e rest}, Admits p k → 2 * ts.length < fuel → Took k l us ts →
      (∀ t vs i own, ts = t :: vs → joint? t = some (i, own) → p ≤ own → Took i.leftRank l us ts) →
      parseJoints fuel p l ts = .ok (e, rest) → Took k e us rest ∧ Stops p rest := by
  induction fuel with
  | zero =>
    exact ⟨fun _ _ h => (nomatch h), fun _ _ h => (nomatch h),
      fun _ h => absurd h (Nat.not_lt_zero _)⟩
  | succ fuel ih =>
    obtain ⟨ihp, iho, ihj⟩ := ih
    refine ⟨?_, ?_, ?_⟩
    · intro p k ts e rest hk hfuel h
      rw [parsePower] at h
      obtain ⟨⟨l, vs⟩, hl, h⟩ := of_bind_ok h
      have hlen := (iho (Nat.zero_le _) (by omega) hl).length_lt
      refine ihj hk (by omega) (iho hk.1 (by omega) hl) (fun t vs i own _ _ _ => ?_) h
      exact iho (leftRank_le_prefixRank i) (by omega) hl
    · intro k ts e rest hk hfuel h
      rw [parseOperand.eq_def] at h
      cases ts with
      | nil => cases h
      | cons t ts =>
        rw [length_cons] at hfuel
        dsimp only at h
        split at h
        · cases h; exact took_of_renders (.number k _) _
        · cases h; exact took_of_renders (.text k _) _
        · cases h; exact took_of_renders (.bool k true) _
        · cases h; exact took_of_renders (.bool k false) _
        · cases h; exact took_of_renders (.name k _) _
        · obtain ⟨⟨e', vs⟩, he, h⟩ := of_bind_ok h
          obtain ⟨htook, hstops⟩ := ihp ⟨Nat.zero_le _, fun _ _ => Nat.zero_le _⟩ (by omega) he
          dsimp only at h
          split at h
          · cases h
            exact htook.parens (eq_parenthesis_of_stops hstops)
          · cases h
          · cases h
        · split at h
          next op hop =>
            obtain ⟨⟨e', vs⟩, he, h⟩ := of_bind_ok h
            cases h
            exact (ihp admits_prefix (by omega) he).1.unary hk hop
          next => cases h
    · intro p k us l ts e rest hk hfuel hl hnext h
      rw [parseJoints.eq_def] at h
      cases ts with
      | nil => cases h; exact ⟨hl, stops_nil p⟩
      | cons t ts =>
        rw [length_cons] at hfuel
        dsimp only at h
        split at h
        next i own hj =>
          split at h
          next hlt =>
            cases h
            refine ⟨hl, fun t' vs i' own' heq hj' => ?_⟩
            obtain ⟨rfl, rfl⟩ := List.cons.inj heq
            obtain ⟨rfl, rfl⟩ := Prod.mk.inj (Option.some.inj (hj.symm.trans hj'))
            exact hlt
          next hge =>
            obtain ⟨⟨r, vs⟩, hr, hrest⟩ := of_bind_ok h
            have hleft := hnext t ts i own rfl hj (Nat.not_lt.mp hge)
            obtain ⟨rfl, rfl⟩ := eq_token_of_joint? hj
            obtain ⟨hright, hstops⟩ := ihp (admits_right rfl) (by omega) hr
            have hlen := hright.length_lt
            refine ihj hk (by omega) (.join (hk.2 _ (Nat.not_lt.mp hge)) hleft hright)
              (fun t' _ j own' heq hj' _ => ?_) hrest
            exact .join (leftRank_le rfl (eq_token_of_joint? hj').2 (hstops _ _ _ _ heq hj'))
              hleft hright
        next hj =>
          cases h
          refine ⟨hl, fun t' vs i' own' heq hj' => ?_⟩
          obtain ⟨rfl, rfl⟩ := List.cons.inj heq
          rw [hj] at hj'
          cases hj'

/-! ### What is accepted -/

theorem exists_of_parseTokens (h : parseTokens ts = .ok e) :
    ∃ ws, List.Forall₂ PassesFor ts ws ∧ Renders 0 e ws := by
  obtain ⟨⟨e', rest⟩, hread, hend⟩ := of_bind_ok h
  obtain ⟨us, ws, hus, hpass, hws⟩ :=
    ((parse_sound _).1 ⟨Nat.zero_le _, fun _ _ => Nat.zero_le _⟩ (by omega) hread).1
  cases rest with
  | nil =>
    cases hend
    rw [append_nil] at hus
    exact ⟨ws, hus ▸ hpass, hws⟩
  | cons _ _ => cases hend

theorem countP_of_renders (h : Renders k e ts) :
    ts.countP (isSign .opening) = ts.countP (isSign .closing) := by
  induction h with
  | number | text | name => rfl
  | bool k b => cases b <;> rfl
  | @unary _ op _ _ _ _ ih => cases op <;> exact ih
  | @binary _ op _ _ _ _ _ _ _ ihl ihr =>
    rw [countP_append, countP_append, ihl]
    cases op <;> exact congrArg _ ihr
  | range _ _ _ iha ihb =>
    rw [countP_append, countP_append, iha]
    exact congrArg _ ihb
  | parens _ ih =>
    rw [countP_cons, countP_cons, countP_append, countP_append, ih]
    rfl

/-- Tokens that pass for others have at least as many opening parentheses and at most as many
    closing ones, and are the same if these are as many. -/
theorem countP_of_passing (h : List.Forall₂ PassesFor ts ws) :
    ws.countP (isSign .opening) ≤ ts.countP (isSign .opening) ∧
      ts.countP (isSign .closing) ≤ ws.countP (isSign .closing) ∧
      (ts.countP (isSign .closing) = ws.countP (isSign .closing) → ts = ws) := by
  induction h with
  | nil => exact ⟨Nat.le_refl _, Nat.le_refl _, fun _ => rfl⟩
  | cons ht _ ih =>
    obtain ⟨hopening, hclosing, heq⟩ := ih
    simp only [countP_cons]
    rcases ht with rfl | ⟨rfl, rfl⟩
    · exact ⟨by omega, by omega, fun h => congrArg _ (heq (by omega))⟩
    · simp only [isSign, beq_iff_eq, reduceCtorEq, if_true, if_false]
      exact ⟨by omega, by omega, fun h => by omega⟩

/-- Tokens are read as an expression if and only if they are a way of writing it but for closing
    parentheses that opening ones pass for. They are a way of writing it, with each opening
    parenthesis closed, if and only if there are as many of either kind. -/
theorem parseTokens_eq_ok_iff (ts : List Token) (e : Expr) :
    (parseTokens ts = .ok e ↔ ∃ ws, List.Forall₂ PassesFor ts ws ∧ Renders 0 e ws) ∧
      (Renders 0 e ts ↔ parseTokens ts = .ok e ∧
        ts.countP (isSign .opening) = ts.countP (isSign .closing)) := by
  refine ⟨⟨exists_of_parseTokens, fun ⟨ws, hpass, hws⟩ => parseTokens_of_passing hws hpass⟩,
    fun h => ⟨parseTokens_of_passing h (passesFor_refl ts), countP_of_renders h⟩, fun ⟨h, hcount⟩ => ?_⟩
  obtain ⟨ws, hpass, hws⟩ := exists_of_parseTokens h
  obtain ⟨hopening, hclosing, heq⟩ := countP_of_passing hpass
  have hbalance := countP_of_renders hws
  exact heq (by omega) ▸ hws

end Loom.Expr
