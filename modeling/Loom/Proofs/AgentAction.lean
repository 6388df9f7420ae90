import Loom.Agent.Line
import Loom.Machine.Code
import Loom.Proofs.Nest
import Loom.Proofs.Pattern
import Loom.Proofs.Running

/-!
# Actions of an Agent

The lines of an agent's flow compile to steps of few shapes. A step makes a
variable of a term, shows a text, returns a term, or returns a term on a condition
and maybe another one otherwise. `Action` is such a step, so that what is to be
said of compiled flows is said of four cases, and not of documents.

## The Stack Machine

What compiled code means. The machine has a place in the code, a stack, the
variables and the lines that were printed. It stops with null when it runs off the
end of the code, and it fails where the stack is too short for an instruction or a
comparison has no answer.

A machine makes one move at a time, and there is one move it can make, so a run
has one ending. `Ends` relates a state to the ending that its run comes to. A
fragment of code is followed through by adding moves in front of a run: if the
state after the fragment comes to an ending, so does the state before it.
-/

namespace Loom.Machine

variable {code rest : Code} {s : State} {e : Ending} {i : Instruction}

def Comparison.sign : Comparison → String
  | eq => "=="
  | ne => "!="
  | gt => ">"
  | ge => ">="
  | lt => "<"
  | le => "<="

def Comparison.answer (c : Comparison) (left right : Value) : Except Error Value :=
  Expr.Node.applyBinary (.str c.sign) left right

@[ext]
structure State where
  place : Nat
  stack : List Value
  env : Env
  /-- The lines printed so far, last first. -/
  printed : List String

/-- How a machine ended: with a value, its variables and its lines, or by a
    failure. -/
inductive Ending where
  | stopped (v : Value) (env : Env) (printed : List String)
  | failed

inductive Move where
  | next (s : State)
  | ending (e : Ending)

namespace State

def start (inputs : Env) : State := ⟨0, [], inputs, []⟩

def goOn (s : State) (stack : List Value) : State := { s with place := s.place + 1, stack }

/-- Push what a computation gives, if it does. -/
def pushing (s : State) (stack : List Value) : Except Error Value → Move
  | .ok v => .next (s.goOn (v :: stack))
  | .error _ => .ending .failed

def exec (s : State) (i : Instruction) : Move := match i, s.stack with
  | .push v, stack => s.pushing stack (.ok v)
  | .load name, stack => s.pushing stack (Expr.Node.lookupName s.env name)
  | .store (.str name), v :: stack => .next { s.goOn stack with env := s.env.put name v }
  | .negate, v :: stack => s.pushing stack (.ok (.bool !v.truthy))
  | .compare c, right :: left :: stack => s.pushing stack (c.answer left right)
  | .display, v :: stack =>
    match v.shown with
    | .ok line => .next { s.goOn stack with printed := line :: s.printed }
    | .error _ => .ending .failed
  | .ret, v :: _ => .ending (.stopped v s.env s.printed)
  | .jumpIfFalse target, v :: stack =>
    .next (if v.truthy then s.goOn stack else { s with place := target, stack })
  | _, _ => .ending .failed

end State

def move (code : Code) (s : State) : Move := match code[s.place]? with
  | some i => s.exec i
  | none => .ending (.stopped .null s.env s.printed)

inductive Ends (code : Code) : State → Ending → Prop
  | now {s : State} {e : Ending} (h : move code s = .ending e) : Ends code s e
  | later {s t : State} {e : Ending} (h : move code s = .next t) (rest : Ends code t e) :
      Ends code s e

theorem Ends.unique {e' : Ending} (h : Ends code s e) (h' : Ends code s e') : e = e' := by
  induction h with
  | now hmove =>
    cases h' with
    | now hmove' => exact Move.ending.inj (hmove.symm.trans hmove')
    | later hmove' _ => exact nomatch hmove.symm.trans hmove'
  | later hmove _ ih =>
    cases h' with
    | now hmove' => exact nomatch hmove.symm.trans hmove'
    | later hmove' rest' =>
      rw [← Move.next.inj (hmove.symm.trans hmove')] at rest'
      exact ih rest'

def CodeAt (code : Code) (place : Nat) (fragment : Code) : Prop := fragment <+: code.drop place

namespace CodeAt

variable {code : Code} {place : Nat}

theorem head (h : CodeAt code place (i :: rest)) : code[place]? = some i := by
  obtain ⟨after, h⟩ := h
  have hget : (code.drop place)[0]? = code[place + 0]? := List.getElem?_drop
  rw [← h, Nat.add_zero] at hget
  exact hget.symm

theorem left {first : Code} (h : CodeAt code place (first ++ rest)) : CodeAt code place first :=
  (List.prefix_append first rest).trans h

theorem right {first : Code} (h : CodeAt code place (first ++ rest)) :
    CodeAt code (place + first.length) rest := by
  obtain ⟨after, h⟩ := h
  refine ⟨after, ?_⟩
  rw [← List.drop_drop, ← h, List.append_assoc, List.drop_left]

theorem tail (h : CodeAt code place (i :: rest)) : CodeAt code (place + 1) rest := by
  have hsplit : CodeAt code place ([i] ++ rest) := h
  exact hsplit.right

end CodeAt

theorem move_of_codeAt (h : CodeAt code s.place (i :: rest)) : move code s = s.exec i := by
  rw [move, h.head]

theorem ends_of_move {t : State} (h : CodeAt code s.place (i :: rest)) (hexec : s.exec i = .next t)
    (ht : Ends code t e) : Ends code s e :=
  .later ((move_of_codeAt h).trans hexec) ht

theorem ends_of_last (h : CodeAt code s.place (i :: rest)) (hexec : s.exec i = .ending e) :
    Ends code s e :=
  .now ((move_of_codeAt h).trans hexec)

theorem ends_offEnd (h : code.length ≤ s.place) : Ends code s (.stopped .null s.env s.printed) := by
  refine .now ?_
  rw [move, List.getElem?_eq_none h]

end Loom.Machine

namespace Loom.Agent

open Loom.Text Loom.Text.Pattern Loom.Machine List Except

variable {v : Value} {comparatives : Bool} {line : String}

/-- A text, a number or a variable. -/
inductive Term where
  | text (s : String)
  | number (v : Value)
  | name (s : String)

/-- What a conditional return asks: a comparison of a variable with a term, or the
    variable itself. -/
inductive Predicate where
  | compares (c : Comparison) (left : String) (right : Term)
  | holds (name : String)

inductive Action where
  | makes (name : String) (named : name.isEmpty = false) (value : Term)
  | shows (text : String)
  | returns (value : Term)
  | chooses (negated : Bool) (p : Predicate) (value : Term) (otherwise : Option Term)

def Term.toValue : Term → Value
  | text s => textExpr s
  | number v => .obj [("type", .str "Number"), ("value", v)]
  | name s => nameExpr s

def Predicate.toValue : Predicate → Value
  | compares c left right => equalsExpr c.sign (nameExpr left) right.toValue
  | holds name => nameExpr name

def Predicate.condition (p : Predicate) (negated : Bool) : Value :=
  if negated then .obj [("type", .str "Unary"), ("op", .str "NOT"), ("expr", p.toValue)]
  else p.toValue

def Action.toValue : Action → Value
  | makes name _ value => .obj [("verb", .str "Make"), ("args", .obj [("var", .str name),
      ("expr", value.toValue)])]
  | shows text => showStep text
  | returns value => returnStep value.toValue
  | chooses negated p value otherwise =>
    chooseStep (p.condition negated) value.toValue
      (otherwise.toList.map fun t => returnStep t.toValue)

variable {s : String}

theorem exists_of_readTerm (h : readTerm s = .ok v) : ∃ t : Term, v = t.toValue := by
  rw [readTerm] at h
  split at h
  · exact ⟨.text _, (ok.inj h).symm⟩
  split at h
  · obtain ⟨n, _, h⟩ := of_bind_ok h
    exact ⟨.number n, (ok.inj h).symm⟩
  split at h
  · exact ⟨.name _, (ok.inj h).symm⟩
  split at h
  · exact ⟨.name _, (ok.inj h).symm⟩
  · exact ⟨.text _, (ok.inj h).symm⟩

theorem exists_sign_of_comparisons : ∀ x ∈ comparisons, ∃ c : Comparison, x.2 = c.sign := by
  have hsigns : ∀ op ∈ comparisons.map Prod.snd, op ∈ [">=", "<=", ">", "<", "!=", "=="] := by
    decide
  intro x hx
  have hop := hsigns x.2 (mem_map_of_mem hx)
  simp only [mem_cons, not_mem_nil, or_false] at hop
  rcases hop with h | h | h | h | h | h
  · exact ⟨.ge, h⟩
  · exact ⟨.le, h⟩
  · exact ⟨.gt, h⟩
  · exact ⟨.lt, h⟩
  · exact ⟨.ne, h⟩
  · exact ⟨.eq, h⟩

variable {c : Comparative}

theorem exists_of_readComparative
    (h : readComparative s = .ok (some c)) : ∃ sign : Comparison, c.op = sign.sign := by
  unfold readComparative at h
  have hall := exists_sign_of_comparisons
  generalize comparisons = ways at h hall
  dsimp only at h
  split at h
  · rename_i m op hfound
    obtain ⟨v, _, h⟩ := of_bind_ok h
    obtain ⟨x, hx, hmatch⟩ := exists_of_findSome?_eq_some hfound
    obtain ⟨_, _, hpair⟩ := Option.map_eq_some_iff.mp hmatch
    obtain ⟨sign, hsign⟩ := hall x hx
    have hop : x.2 = op := congrArg Prod.snd hpair
    have hc : Comparative.mk (m.group "left") op v = c := Option.some_inj.mp (ok.inj h)
    exact ⟨sign, by rw [← hc, ← hsign, hop]⟩
  · cases h

theorem exists_of_comparativeOf? {head condition : String}
    (h : comparativeOf? comparatives head condition = some c) :
    ∃ sign : Comparison, c.op = sign.sign := by
  rw [comparativeOf?] at h
  split at h
  · split at h
    · rename_i hread
      exact exists_of_readComparative (hread.trans (congrArg ok h))
    · cases h
  · cases h

theorem exists_of_predicateOf {head condition : String}
    (h : predicateOf comparatives head condition = .ok v) :
    ∃ (p : Predicate) (negated : Bool), v = p.condition negated := by
  rw [predicateOf] at h
  split at h
  · rename_i c hc
    obtain ⟨sign, hsign⟩ := exists_of_comparativeOf? hc
    obtain ⟨right, hright, h⟩ := of_bind_ok h
    obtain ⟨t, rfl⟩ := exists_of_readTerm hright
    refine ⟨.compares sign c.left t, false, ?_⟩
    rw [Predicate.condition, if_neg Bool.false_ne_true, Predicate.toValue, ← hsign]
    exact (ok.inj h).symm
  · dsimp only at h
    have hplain : ∃ p : Predicate, (if noName.occurs condition then
        equalsExpr "==" (nameExpr "name") (textExpr "")
      else nameExpr (nameOfCondition condition)) = p.toValue := by
      split
      · exact ⟨.compares .eq "name" (.text ""), rfl⟩
      · exact ⟨.holds _, rfl⟩
    obtain ⟨p, hp⟩ := hplain
    rw [hp] at h
    split at h
    · exact ⟨p, true, (ok.inj h).symm⟩
    · exact ⟨p, false, (ok.inj h).symm⟩

theorem exists_of_readCondition {predicate value : Value}
    (h : readCondition comparatives line = .ok (some (predicate, value))) :
    ∃ (p : Predicate) (negated : Bool) (t : Term),
      predicate = p.condition negated ∧ value = t.toValue := by
  rw [readCondition] at h
  split at h
  · cases h
  · obtain ⟨v, hv, h⟩ := of_bind_ok h
    obtain ⟨w, hw, h⟩ := of_bind_ok h
    obtain ⟨p, negated, rfl⟩ := exists_of_predicateOf hv
    obtain ⟨t, rfl⟩ := exists_of_readTerm hw
    have hpair := Prod.mk.inj (Option.some_inj.mp (ok.inj h))
    exact ⟨p, negated, t, hpair.1.symm, hpair.2.symm⟩

theorem isEmpty_name_of_makeLine {m : Match} (h : makeLine.match? line = some m) :
    (m.group "name").isEmpty = false := by
  obtain ⟨_, _, _, ⟨_, _, ⟨_, _, ⟨_, _, ⟨_, _, ⟨after, _, ⟨here, _, hhead, hname⟩, hspace⟩, hsay⟩,
    hspace'⟩, ⟨_, hvalue, hgroup⟩⟩, hgap⟩, _, _, hfinish⟩ := fits_of_match? h
  obtain ⟨_, ⟨_, _, ⟨c, _, hc, _, rfl⟩, w, _, hw, _, rfl⟩, hgroup'⟩ := hname
  have hsplit : here.rest = (c :: w) ++ after.rest := by rw [hc, hw, cons_append]
  have htake : here.rest.take (here.rest.length - after.rest.length) = c :: w := by
    rw [hsplit, length_append, Nat.add_sub_cancel, take_left]
  -- between the two groups and after them nothing is remembered
  rw [groups_of_fits rfl hvalue, groups_of_fits rfl hspace', groups_of_fits rfl hsay,
    groups_of_fits rfl hspace, hgroup', htake, groups_of_fits rfl hhead] at hgroup
  have hname : m.group "name" = String.ofList (c :: w) := by
    rw [Match.group, Match.group?, hfinish, groups_of_fits rfl hgap, hgroup]
    rfl
  rw [hname]
  simp

theorem exists_of_plainAction (h : plainAction line = .ok v) : ∃ a : Action, v = a.toValue := by
  rw [plainAction] at h
  split at h
  · rename_i m hmake
    obtain ⟨value, hvalue, h⟩ := of_bind_ok h
    obtain ⟨t, rfl⟩ := exists_of_readTerm hvalue
    exact ⟨.makes (m.group "name") (isEmpty_name_of_makeLine hmake) t, (ok.inj h).symm⟩
  · obtain ⟨value, hvalue, h⟩ := of_bind_ok h
    obtain ⟨t, rfl⟩ := exists_of_readTerm hvalue
    exact ⟨.returns t, (ok.inj h).symm⟩
  · exact ⟨.shows line, (ok.inj h).symm⟩

variable {steps : List Value}

theorem exists_of_cons {a : Action} {c : Except Error (List Value)}
    (hrest : ∀ {rest}, c = .ok rest → ∃ as : List Action, rest = as.map Action.toValue)
    (h : (do pure (a.toValue :: (← c)) : Except Error (List Value)) = .ok steps) :
    ∃ as : List Action, steps = as.map Action.toValue := by
  obtain ⟨rest, hc, h⟩ := of_bind_ok h
  obtain ⟨as, rfl⟩ := hrest hc
  exact ⟨a :: as, (ok.inj h).symm⟩

theorem exists_of_compileActions {lines : List String}
    (h : compileActions comparatives lines = .ok steps) :
    ∃ as : List Action, steps = as.map Action.toValue := by
  fun_induction compileActions comparatives lines generalizing steps with
  | case1 => exact ⟨[], (ok.inj h).symm⟩
  | case2 line rest _ ihrest ih =>
    obtain ⟨read, hread, h⟩ := of_bind_ok h
    rcases read with _ | ⟨predicate, value⟩
    · exact exists_of_cons (a := .shows ("[unparsed condition] " ++ line)) ihrest h
    obtain ⟨p, negated, t, rfl, rfl⟩ := exists_of_readCondition hread
    cases rest with
    | nil => exact ⟨[.chooses negated p t none], (ok.inj h).symm⟩
    | cons next others =>
      -- the line after a condition belongs to it if it says what happens otherwise
      dsimp only at h
      split at h
      · obtain ⟨otherwise, hotherwise, h⟩ := of_bind_ok h
        obtain ⟨o, rfl⟩ := exists_of_readTerm hotherwise
        exact exists_of_cons (a := .chooses negated p t (some o)) ih.1 h
      · exact exists_of_cons (a := .chooses negated p t none) ih.2 h
  | case3 line rest _ ih =>
    obtain ⟨v, hv, h⟩ := of_bind_ok h
    obtain ⟨a, rfl⟩ := exists_of_plainAction hv
    exact exists_of_cons ih h

variable {m : Value}

theorem exists_of_compileModule (h : compileModule comparatives v = .ok m) :
    ∃ as : List Action, Run.HasSteps m (as.map Action.toValue) := by
  obtain ⟨lines, _, h⟩ := of_bind_ok h
  obtain ⟨items, _, h⟩ := of_bind_ok h
  obtain ⟨steps, hsteps, h⟩ := of_bind_ok h
  obtain ⟨texts, _, hcompile⟩ := of_bind_ok hsteps
  obtain ⟨as, rfl⟩ := exists_of_compileActions hcompile
  obtain ⟨name, _, h⟩ := of_bind_ok h
  obtain ⟨parts, _, h⟩ := of_bind_ok h
  obtain ⟨purpose, _, h⟩ := of_bind_ok h
  cases h
  exact ⟨as, rfl, rfl, rfl, rfl, rfl⟩

theorem exists_of_compileModules {vs ms : List Value}
    (h : compileModules comparatives vs = .ok ms) (hm : m ∈ ms) :
    ∃ as : List Action, Run.HasSteps m (as.map Action.toValue) := by
  induction vs generalizing ms with
  | nil =>
    rw [← ok.inj h] at hm
    cases hm
  | cons v vs ih =>
    obtain ⟨first, hfirst, h⟩ := of_bind_ok h
    obtain ⟨rest, hrest, h⟩ := of_bind_ok h
    rw [← ok.inj h] at hm
    rcases mem_cons.mp hm with rfl | hm
    · exact exists_of_compileModule hfirst
    · exact ih hrest hm

end Loom.Agent
