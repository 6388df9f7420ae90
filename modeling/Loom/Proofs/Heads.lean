import Loom.Proofs.LineKinds
import Loom.Proofs.Negation

/-!
# Heads of Conditions

A line with a condition starts with a word that says whether its return is for when the
condition holds or for when it does not. The rest of the line is read in the same way after
either word. A comparison is read from the rest alone, so that the word makes no difference to
it, and any other condition is negated by an operator that a session does not evaluate.

The reading is a search with backtracking, so the two lines are compared by following one
pattern twice: `run_renamed` says that what a pattern remembered before has no part in where it
goes.
-/

open String (ofList toList_ofList toList_append ofList_toList)

namespace Loom.Text.Pattern
open List

variable {β γ : Type} {F : β → γ} {accepts : Char → Bool} {k' : Place → Option γ}
  {condition : String}

theorem runMany_map {k : Place → Option β}
    (hk : ∀ next, k' next = (k next).map F) (before : Option Char) (cs : List Char) :
    runMany accepts k' before cs = (runMany accepts k before cs).map F := by
  induction cs generalizing before with
  | nil => exact hk _
  | cons c cs ih =>
    rw [runMany, runMany, ih, hk]
    split
    · cases runMany accepts k (some c) cs <;> rfl
    · rfl

theorem runFew_map {k : Place → Option β}
    (hk : ∀ next, k' next = (k next).map F) (before : Option Char) (cs : List Char) :
    runFew accepts k' before cs = (runFew accepts k before cs).map F := by
  induction cs generalizing before with
  | nil => exact hk _
  | cons c cs ih =>
    rw [runFew, runFew, ih, hk]
    cases k ⟨before, c :: cs⟩ with
    | some r => rfl
    | none =>
      dsimp only [Option.map]
      split <;> rfl

theorem run_renamed {p : Pattern} {old old' : Groups} (hp : p.repeats = false)
    {k : Place → Groups → Option β} {k' : Place → Groups → Option γ}
    (hk : ∀ next gs, k' next (gs ++ old') = (k next (gs ++ old)).map F) (here : Place)
    (gs : Groups) : p.run here (gs ++ old') k' = (p.run here (gs ++ old) k).map F := by
  induction p generalizing here gs k k' with
  | nothing => exact hk here gs
  | one accepts =>
    rw [run, run]
    cases here.rest with
    | nil => rfl
    | cons c cs =>
      dsimp only
      split
      · exact hk _ gs
      · rfl
  | seq p q ihp ihq =>
    obtain ⟨hp, hq⟩ := Bool.or_eq_false_iff.mp hp
    exact ihp hp (fun next gs => ihq hq hk next gs) here gs
  | alt p q ihp ihq =>
    obtain ⟨hp, hq⟩ := Bool.or_eq_false_iff.mp hp
    rw [run, run, ihp hp hk, ihq hq hk]
    cases p.run here (gs ++ old) k <;> rfl
  | many accepts => exact runMany_map (fun next => hk next gs) _ _
  | few accepts => exact runFew_map (fun next => hk next gs) _ _
  | repeated p => cases hp
  | named name p ih => exact ih hp (fun next gs => hk next (_ :: gs)) here gs
  | start | finish | ended | edge =>
    rw [run, run]
    split
    · exact hk here gs
    · rfl

theorem run_alt_of_none {p q : Pattern} {here : Place} {gs : Groups}
    {k : Place → Groups → Option β} (hq : q.run here gs k = none) :
    (alt p q).run here gs k = p.run here gs k := by
  rw [run, hq]
  cases p.run here gs k <;> rfl

end Loom.Text.Pattern

namespace Loom.Agent
open Loom.Text Loom.Text.Pattern List

/-- The words that the two kinds of conditions start with. -/
def IsHead (h : List Char) : Prop := h = "if".toList ∨ h = "unless".toList

variable {h body : List Char} {β : Type}

theorem run_conditionHead (hh : IsHead h) (body : List Char) (K : Place → Groups → Option β) :
    conditionHead.run ⟨none, h ++ body⟩ [] K = K ⟨h.getLast?, body⟩ [("head", h)] := by
  have htake : (h ++ body).take ((h ++ body).length - body.length) = h := by
    rw [length_append, Nat.add_sub_cancel, take_left]
  rcases hh with rfl | rfl
  · have hrun : conditionHead.run ⟨none, "if".toList ++ body⟩ [] K =
        K ⟨some 'f', body⟩ [("head", ("if".toList ++ body).take
          (("if".toList ++ body).length - body.length))] :=
      run_alt_of_none (p := word "if") (q := oneOf [word "when", word "unless"]) rfl
    rw [hrun, htake]
    rfl
  · have hrun : conditionHead.run ⟨none, "unless".toList ++ body⟩ [] K =
        K ⟨some 's', body⟩ [("head", ("unless".toList ++ body).take
          (("unless".toList ++ body).length - body.length))] := rfl
    rw [hrun, htake]
    rfl

def conditionRest : Pattern :=
  space ++ named "condition" (few1 onLine) ++ space ++ word "then" ++ space ++
    word "return" ++ space ++ named "value" (few1 onLine) ++ gap ++ finish

theorem groups_conditionLine (hh : IsHead h) (body : List Char) :
    (conditionLine.match? (ofList (h ++ body))).map Match.groups =
      (conditionRest.run ⟨none, body⟩ [] fun _ gs => some gs).map (· ++ [("head", h)]) := by
  have hgroups := @run_renamed _ _ Match.groups conditionLine [] [] (by decide)
    (fun next gs => some ⟨(h ++ body).take ((h ++ body).length - next.rest.length), next.rest, gs⟩)
    (fun _ gs => some gs) (fun _ _ => rfl) ⟨none, h ++ body⟩ []
  have hrest : conditionLine.run ⟨none, h ++ body⟩ [] (fun _ gs => some gs) =
      conditionRest.run ⟨none, body⟩ [("head", h)] fun _ gs => some gs := by
    refine (run_conditionHead hh body fun next gs =>
      conditionRest.run next gs fun _ gs => some gs).trans ?_
    cases body <;> rfl
  have hold := @run_renamed _ _ (· ++ [("head", h)]) conditionRest [] [("head", h)] (by decide)
    (fun _ gs => some gs) (fun _ gs => some gs) (fun _ _ => by rw [append_nil]; rfl)
    ⟨none, body⟩ []
  rw [match?, matchAt, toList_ofList]
  exact hgroups.symm.trans (hrest.trans hold)

theorem groups_conditionRest {gs : Groups} (hrun : conditionRest.run ⟨none, body⟩ []
    (fun _ gs => some gs) = some gs) : ∃ u w, gs = [("value", w), ("condition", u)] := by
  obtain ⟨next, gs', hfits, heq⟩ := fits_of_run conditionRest hrun
  obtain ⟨_, _, ⟨_, _, ⟨_, _, ⟨_, _, ⟨_, _, ⟨_, _, ⟨_, _, ⟨_, _, ⟨_, _, hspace, ⟨_, hcond, rfl⟩⟩,
    hspace'⟩, hthen⟩, hspace''⟩, hreturn⟩, hspace₄⟩, ⟨_, hvalue, rfl⟩⟩, hgap⟩, hfinish⟩ := hfits
  rw [groups_of_fits rfl hfinish, groups_of_fits rfl hgap, groups_of_fits rfl hvalue,
    groups_of_fits rfl hspace₄, groups_of_fits rfl hreturn, groups_of_fits rfl hspace'',
    groups_of_fits rfl hthen, groups_of_fits rfl hspace', groups_of_fits rfl hcond,
    groups_of_fits rfl hspace] at heq
  exact ⟨_, _, (Option.some_inj.mp heq).symm⟩

theorem opener_matchAt {d : Char} {ds : List Char} (hh : IsHead h) (hd : isBlank d = false) :
    opener.matchAt ⟨none, h ++ ' ' :: d :: ds⟩ = some ⟨h ++ [' '], d :: ds, []⟩ := by
  have hmany (k : Place → Option Match) :
      runMany isBlank k (some ' ') (d :: ds) = k ⟨some ' ', d :: ds⟩ := by
    rw [runMany, hd]
    rfl
  have htake : (h ++ ' ' :: d :: ds).take ((h ++ ' ' :: d :: ds).length - (d :: ds).length) =
      h ++ [' '] := by
    rw [append_cons, length_append, Nat.add_sub_cancel, take_left]
  have hrun : opener.matchAt ⟨none, h ++ ' ' :: d :: ds⟩ = runMany isBlank (fun next =>
      some ⟨(h ++ ' ' :: d :: ds).take ((h ++ ' ' :: d :: ds).length - next.rest.length),
        next.rest, []⟩) (some ' ') (d :: ds) := by
    rcases hh with rfl | rfl
    · exact run_alt_of_none (p := word "if") (q := word "unless") rfl
    · rfl
  rw [hrun, hmany, htake]

theorem opener_replaceAll {d : Char} {ds : List Char} (hh : IsHead h) (hd : isBlank d = false) :
    replaceFrom opener (fun _ => []) none 0 (h ++ ' ' :: d :: ds) = d :: ds := by
  have hmatch := @opener_matchAt h d ds hh hd
  have hlater : replaceFrom opener (fun _ => []) (some ' ') 0 (d :: ds) = d :: ds :=
    Outline.replaceFrom_after (fun _ _ => rfl) _ _ _
  refine Eq.trans ?_ hlater
  obtain ⟨c, cs, rfl⟩ : ∃ c cs, h = c :: cs := by
    rcases hh with rfl | rfl <;> exact ⟨_, _, rfl⟩
  rw [cons_append] at hmatch ⊢
  rw [replaceFrom, hmatch]
  rcases hh with hif | hunless
  · cases hif
    rfl
  · cases hunless
    rfl

theorem bareCondition_head (hh : IsHead h)
    (htrim : Trimmed isBlank condition.toList) (hne : condition.toList ≠ []) :
    bareCondition (ofList h ++ " " ++ condition) = dropCourtesy
      (if endsWith condition ":" then ofList condition.toList.dropLast else condition) := by
  have hlist : (ofList h ++ " " ++ condition).toList = h ++ ' ' :: condition.toList := by
    rw [toList_append, toList_append, toList_ofList]
    exact append_assoc _ _ _
  have hstrip : Trimmed isBlank (ofList h ++ " " ++ condition).toList := by
    rw [hlist]
    refine ⟨fun c hc => ?_, fun c hc => htrim.last c ?_⟩
    · rcases hh with rfl | rfl <;> cases hc <;> decide
    · rwa [getLast?_append_cons, getLast?_cons_of_ne_nil hne] at hc
  have hopened : opener.replaceAll (fun _ => "") (strip (ofList h ++ " " ++ condition)) =
      condition := by
    obtain ⟨d, ds, hd⟩ := exists_cons_of_ne_nil hne
    have hfirst : isBlank d = false := htrim.first d (by rw [hd]; rfl)
    rw [strip_of_trimmed hstrip, replaceAll, hlist, hd]
    refine (congrArg ofList (opener_replaceAll hh hfirst)).trans ?_
    rw [← hd, ofList_toList]
  rw [bareCondition, hopened]

variable (comparatives : Bool)

theorem comparativeOf?_unless
    (htrim : Trimmed isBlank condition.toList) : comparativeOf? comparatives "unless" condition =
      comparativeOf? comparatives "if" condition := by
  cases hc : condition.toList with
  | nil =>
    obtain rfl : condition = "" := String.toList_inj.mp hc
    have hif : comparativeOf? comparatives "if" "" = none :=
      Option.isNone_iff_eq_none.mp (by cases comparatives <;> decide +kernel)
    have hunless : comparativeOf? comparatives "unless" "" = none :=
      Option.isNone_iff_eq_none.mp (by cases comparatives <;> decide +kernel)
    exact hunless.trans hif.symm
  | cons d ds =>
    have hne : condition.toList ≠ [] := by
      rw [hc]
      exact cons_ne_nil _ _
    have hif := bareCondition_head (.inl rfl) htrim hne
    have hunless := bareCondition_head (.inr rfl) htrim hne
    rw [ofList_toList] at hif hunless
    have hread : readComparative ("unless" ++ " " ++ condition) =
        readComparative ("if" ++ " " ++ condition) := by
      unfold readComparative
      rw [hunless.trans hif.symm]
    rw [comparativeOf?, hread, comparativeOf?]

def negationOf (p : Value) : Value := .obj [("type", .str "Unary"), ("op", .str "NOT"), ("expr", p)]

theorem predicateOf_unless {comparatives : Bool} {P : Value}
    (htrim : Trimmed isBlank condition.toList)
    (h : predicateOf comparatives "if" condition = .ok P) :
    ∃ Q, predicateOf comparatives "unless" condition = .ok Q ∧
      ((comparativeOf? comparatives "if" condition).isSome → Q = P) ∧
      (comparativeOf? comparatives "if" condition = none → Q = negationOf P ∧
        ∀ env v, Expr.eval env P = .ok v →
          Expr.eval env Q = .error (.run (.unsupportedUnary (.str "NOT")))) := by
  rw [predicateOf] at h ⊢
  rw [comparativeOf?_unless comparatives htrim]
  cases hc : comparativeOf? comparatives "if" condition with
  | some c =>
    rw [hc] at h
    exact ⟨P, h, fun _ => rfl, fun h => absurd h (Option.some_ne_none c)⟩
  | none =>
    rw [hc] at h
    obtain rfl := Except.ok.inj h
    refine ⟨_, rfl, fun h => absurd h Bool.false_ne_true, fun _ => ⟨rfl, fun env v hv => ?_⟩⟩
    -- The condition that is negated is of one of two shapes, and both are read as predicates.
    have hplain : ∀ p : Predicate, Expr.eval env p.toValue = .ok v →
        Expr.eval env (negationOf p.toValue) = .error (.run (.unsupportedUnary (.str "NOT"))) := by
      intro p hp
      refine (eval_negated env p).trans ?_
      rw [← eval_predicate, hp]
      rfl
    cases hno : noName.occurs condition with
    | true =>
      rw [hno] at hv
      exact hplain (.compares .eq "name" (.text "")) hv
    | false =>
      rw [hno] at hv
      exact hplain (.holds (nameOfCondition condition)) hv

theorem strip_line (hh : IsHead h) (rest : String) : strip (ofList h ++ " " ++ rest) =
      ofList (h ++ dropEndWhile isBlank (' ' :: rest.toList)) := by
  have hlist : (ofList h ++ " " ++ rest).toList = h ++ ' ' :: rest.toList := by
    rw [toList_append, toList_append, toList_ofList]
    exact append_assoc _ _ _
  have hfirst : ∀ c, (h ++ ' ' :: rest.toList).head? = some c → isBlank c = false := by
    intro c hc
    rcases hh with rfl | rfl <;> cases hc <;> decide
  have hlast : ∀ c, h.getLast? = some c → isBlank c = false := by
    intro c hc
    rcases hh with rfl | rfl <;> cases hc <;> decide
  rw [strip, stripWhere, stripChars, hlist, dropWhile_of_head hfirst,
    dropEndWhile_append_of_last hlast]

theorem isCondition_line (hh : IsHead h) (rest : List Char) :
    isCondition (ofList (h ++ dropEndWhile isBlank (' ' :: rest))) := by
  have hbody : (dropEndWhile isBlank (' ' :: rest)).head?.any isWord = false := by
    have hpre : dropEndWhile isBlank (' ' :: rest) <+: ' ' :: rest :=
      ⟨_, dropEndWhile_append isBlank _⟩
    rcases prefix_cons_iff.mp hpre with hnil | ⟨t, ht, _⟩
    · rw [hnil]
      rfl
    · rw [ht]
      rfl
  rw [isCondition, fits, match?, matchAt, toList_ofList]
  refine (congrArg Option.isSome
    (run_conditionHead hh _ fun next gs => edge.run next gs _)).trans ?_
  have hedge : Place.atEdge ⟨h.getLast?, dropEndWhile isBlank (' ' :: rest)⟩ := by
    rw [Place.atEdge]
    dsimp only
    rw [hbody]
    rcases hh with rfl | rfl <;> decide
  rw [run, if_pos hedge]
  rfl

theorem compileFlow_line (hh : IsHead h) (rest : String) :
    compileFlow comparatives [.str (ofList h ++ " " ++ rest)] =
      compileActions comparatives [strip (ofList h ++ " " ++ rest)] := by
  have hcond := isCondition_line hh rest.toList
  rw [← strip_line hh] at hcond
  have hne : (strip (ofList h ++ " " ++ rest)).isEmpty = false := by
    cases hempty : (strip (ofList h ++ " " ++ rest)).isEmpty with
    | false => rfl
    | true =>
      rw [String.isEmpty_iff.mp hempty] at hcond
      exact absurd hcond (by decide)
  have hactions : actionsOf (ofList h ++ " " ++ rest) =
      [strip (ofList h ++ " " ++ rest)] := by
    rw [actionsOf, hne, hcond]
    rfl
  have hlines : actions [.str (ofList h ++ " " ++ rest)] =
      .ok (actionsOf (ofList h ++ " " ++ rest) ++ []) := rfl
  rw [compileFlow, hlines, append_nil, hactions]
  rfl

theorem compileFlow_eq_choice_iff (hh : IsHead h) (rest : String)
    (P value : Value) : compileFlow comparatives [.str (ofList h ++ " " ++ rest)] =
        .ok [chooseStep P value []] ↔
      readCondition comparatives (strip (ofList h ++ " " ++ rest)) =
        .ok (some (P, value)) := by
  have hcond := isCondition_line hh rest.toList
  rw [← strip_line hh] at hcond
  rw [compileFlow_line comparatives hh, compileActions, if_pos hcond]
  rcases readCondition comparatives (strip (ofList h ++ " " ++ rest)) with e | _ | ⟨p, v⟩
  · constructor <;>
      · intro h
        cases h
  · refine ⟨fun h => ?_, fun h => by cases h⟩
    have hverb : Value.str "Show" = .str "Choose" := congrArg
      (fun r : Except Error (List Value) => (r.toOption.bind head?).elim .null (·.field "verb")) h
    exact absurd (Value.str.inj hverb) (by decide)
  · constructor
    · intro h
      cases h
      rfl
    · intro h
      cases h
      rfl

/-- The condition that a line states and what it returns. -/
def partsOf? (line : String) : Option (String × String) :=
  (conditionLine.match? (strip line)).map fun m =>
    (strip (m.group "condition"), strip (m.group "value"))

theorem groups_line (hh : IsHead h) (rest : String) :
    (conditionLine.match? (strip (ofList h ++ " " ++ rest))).map Match.groups =
      (conditionRest.run ⟨none, dropEndWhile isBlank (' ' :: rest.toList)⟩ []
        fun _ gs => some gs).map (· ++ [("head", h)]) := by
  rw [strip_line hh]
  exact groups_conditionLine hh _

def readParts (comparatives : Bool) (head : String) (parts : String × String) :
    Except Error (Option (Value × Value)) := do
  let predicate ← predicateOf comparatives head parts.1
  let value ← readTerm parts.2
  pure (some (predicate, value))

theorem readCondition_line (hh : IsHead h) (rest : String) :
    readCondition comparatives (strip (ofList h ++ " " ++ rest)) =
      (partsOf? (ofList h ++ " " ++ rest)).elim (.ok none)
        (readParts comparatives (ofList h)) := by
  have hgroups := groups_line hh rest
  rw [readCondition, partsOf?]
  cases hm : conditionLine.match? (strip (ofList h ++ " " ++ rest)) with
  | none => rfl
  | some m =>
    rw [hm] at hgroups
    obtain ⟨gs, hrun, hgs⟩ := Option.map_eq_some_iff.mp hgroups.symm
    obtain ⟨u, w, rfl⟩ := groups_conditionRest hrun
    have hhead : lower (m.group "head") = ofList h := by
      rw [Match.group, Match.group?, ← hgs]
      rcases hh with rfl | rfl
      · exact show lower "if" = "if" by decide
      · exact show lower "unless" = "unless" by decide
    dsimp only [Option.map, Option.elim]
    rw [hhead, readParts]

theorem partsOf?_unless (rest : String) :
    partsOf? ("unless" ++ " " ++ rest) = partsOf? ("if" ++ " " ++ rest) := by
  have hif := groups_line (.inl rfl) rest
  have hunless := groups_line (.inr rfl) rest
  rw [ofList_toList] at hif hunless
  rw [partsOf?, partsOf?]
  cases hrun : conditionRest.run ⟨none, dropEndWhile isBlank (' ' :: rest.toList)⟩ []
      fun _ gs => some gs with
  | none =>
    rw [hrun] at hif hunless
    rw [Option.map_eq_none_iff.mp hif, Option.map_eq_none_iff.mp hunless]
  | some gs =>
    rw [hrun] at hif hunless
    obtain ⟨m, hm, hgs⟩ := Option.map_eq_some_iff.mp hif
    obtain ⟨m', hm', hgs'⟩ := Option.map_eq_some_iff.mp hunless
    -- The two matches differ in the head that they remember, and in nothing else.
    have hgroup (name : String) (hname : ("head" == name) = false) :
        m'.group name = m.group name := by
      rw [Match.group, Match.group?, hgs', Match.group, Match.group?, hgs, find?_append,
        find?_append, find?_singleton, find?_singleton, hname]
      rfl
    rw [hm, hm', Option.map_some, Option.map_some, hgroup "condition" (by decide),
      hgroup "value" (by decide)]

theorem trimmed_of_partsOf? {line : String} {parts : String × String}
    (h : partsOf? line = some parts) : Trimmed isBlank parts.1.toList := by
  obtain ⟨m, _, rfl⟩ := Option.map_eq_some_iff.mp h
  exact trimmed_strip _

/-- The line with the other head has the same steps. Its condition is the same too where it is a
    comparison, and is one that no session evaluates where it is not. So it holds nowhere the
    first does not. -/
theorem unless_never_opposes {comparatives : Bool} {rest : String} {P value : Value}
    (h : compileFlow comparatives [.str ("if" ++ " " ++ rest)] = .ok [chooseStep P value []]) :
    ∃ parts Q, partsOf? ("if" ++ " " ++ rest) = some parts ∧
      compileFlow comparatives [.str ("unless" ++ " " ++ rest)] = .ok [chooseStep Q value []] ∧
      ((comparativeOf? comparatives "if" parts.1).isSome = true → Q = P) ∧
      (comparativeOf? comparatives "if" parts.1 = none → Q = negationOf P ∧
        ∀ env v, Expr.eval env P = .ok v →
          Expr.eval env Q = .error (.run (.unsupportedUnary (.str "NOT")))) := by
  have hif := compileFlow_eq_choice_iff comparatives (.inl rfl) rest P value
  rw [readCondition_line comparatives (.inl rfl), String.ofList_toList] at hif
  have hunless (Q : Value) := compileFlow_eq_choice_iff comparatives (.inr rfl) rest Q value
  rw [readCondition_line comparatives (.inr rfl), String.ofList_toList, partsOf?_unless] at hunless
  have hread := hif.mp h
  cases hparts : partsOf? ("if" ++ " " ++ rest) with
  | none =>
    rw [hparts] at hread
    cases hread
  | some parts =>
    rw [hparts] at hread hunless
    obtain ⟨p, hp, hread⟩ := of_bind_ok hread
    obtain ⟨v, hv, hread⟩ := of_bind_ok hread
    cases hread
    obtain ⟨Q, hQ, hcases⟩ := predicateOf_unless (trimmed_of_partsOf? hparts) hp
    refine ⟨parts, Q, rfl, (hunless Q).mpr ?_, hcases⟩
    rw [Option.elim_some, readParts, hQ, hv]
    rfl

theorem unless_never_opposes_equal :
    compileFlow true [.str ("if" ++ " " ++ "x is y then return z")] =
        .ok [chooseStep (equalsExpr "==" (nameExpr "x") (nameExpr "y")) (nameExpr "z") []] ∧
      compileFlow true [.str ("unless" ++ " " ++ "x is y then return z")] =
        .ok [chooseStep (equalsExpr "==" (nameExpr "x") (nameExpr "y")) (nameExpr "z") []] := by
  have hif : compileFlow true [.str ("if" ++ " " ++ "x is y then return z")] =
      .ok [chooseStep (equalsExpr "==" (nameExpr "x") (nameExpr "y")) (nameExpr "z") []] :=
    Value.eq_ok_of_areCopies (by decide +kernel)
  have hcomparison : (partsOf? ("if" ++ " " ++ "x is y then return z")).all
      (fun parts => (comparativeOf? true "if" parts.1).isSome) = true := by decide +kernel
  obtain ⟨parts, Q, hparts, hunless, hsame, _⟩ := unless_never_opposes hif
  rw [hparts, Option.all_some] at hcomparison
  exact ⟨hif, hsame hcomparison ▸ hunless⟩

end Loom.Agent
