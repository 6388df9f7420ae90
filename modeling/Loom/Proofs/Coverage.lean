import Loom.Module
import Loom.Proofs.Nest
import Loom.Proofs.Text
import Mathlib.Data.List.Perm.Subperm

/-!
# Lines That Reach the Flow

An outline tree holds lines at every depth: outermost in its flow, in the body of
a block, in a branch of a `Choose` and in its other case. The flow of the module
is read from the outermost steps alone. What stands inside a step is never
looked at, so a body that the tree has already gathered does not reach the
module; and a line that has the shape of a loop header, such as
`Show i in 1..3`, is read as a repetition.

So there is an exact condition for a module to keep every line of its outline.
Each line that is kept is followed to its own step in the flow, which is where
the origins of `Node` are needed: two lines with the same text are two lines.
Counting does the rest, because the lines of the tree that are not kept have no
origin left to be matched with.
-/

namespace Loom.Flow

open Loom.Text Loom.Outline Node List Except Nest

variable {v : Value} {steps : List Value}

/-! ### Objects in a document -/

mutual

/-- The objects that satisfy `p` in a value, the value itself included. -/
def findAll (p : Value → Bool) : Value → List Value
  | .list vs => findInList p vs
  | .obj fs => (if p (.obj fs) then [.obj fs] else []) ++ findInFields p fs
  | _ => []

def findInList (p : Value → Bool) : List Value → List Value
  | [] => []
  | v :: vs => findAll p v ++ findInList p vs

def findInFields (p : Value → Bool) : List (String × Value) → List Value
  | [] => []
  | (_, v) :: fs => findAll p v ++ findInFields p fs

end

/-- The objects that satisfy `p` inside a value. -/
def findBelow (p : Value → Bool) : Value → List Value
  | .list vs => findInList p vs
  | .obj fs => findInFields p fs
  | _ => []

theorem findAll_eq (p : Value → Bool) (hp : ∀ v, p v → v.isObj) (v : Value) :
    findAll p v = (if p v then [v] else []) ++ findBelow p v := by
  cases hv : p v with
  | true =>
    cases v with
    | obj fs => rw [findAll, hv, findBelow]
    | _ => exact absurd (hp _ hv) Bool.false_ne_true
  | false => cases v <;> simp [findAll, findBelow, hv]

theorem findInList_perm (p : Value → Bool) (hp : ∀ v, p v → v.isObj)
    (vs : List Value) : (findInList p vs).Perm (vs.filter p ++ vs.flatMap (findBelow p)) := by
  induction vs with
  | nil => exact .nil
  | cons v vs ih =>
    rw [findInList, findAll_eq p hp, flatMap_cons, append_assoc]
    have hrest : (findBelow p v ++ findInList p vs).Perm
        (vs.filter p ++ (findBelow p v ++ vs.flatMap (findBelow p))) :=
      (ih.append_left _).trans (perm_append_comm_assoc _ _ _)
    cases hv : p v with
    | true =>
      rw [filter_cons_of_pos hv]
      exact hrest.cons v
    | false =>
      rw [filter_cons_of_neg (by simp [hv])]
      exact hrest

mutual

theorem all_findAll (p : Value → Bool) : ∀ v, ∀ w ∈ findAll p v, p w
  | .list vs => all_findInList p vs
  | .obj fs => by
    intro w hw
    rw [findAll] at hw
    rcases mem_append.mp hw with hown | hin
    · split at hown
      · rename_i hp
        rw [mem_singleton.mp hown]
        exact hp
      · cases hown
    · exact all_findInFields p fs w hin
  | .null | .bool _ | .int _ | .float _ | .nan _ | .str _ | .bytes _ => by simp [findAll]

theorem all_findInList (p : Value → Bool) : ∀ vs, ∀ w ∈ findInList p vs, p w
  | [] => fun _ hw => absurd hw not_mem_nil
  | v :: vs => fun w hw => (mem_append.mp hw).elim (all_findAll p v w) (all_findInList p vs w)

theorem all_findInFields (p : Value → Bool) : ∀ fs, ∀ w ∈ findInFields p fs, p w
  | [] => fun _ hw => absurd hw not_mem_nil
  | (_, v) :: fs => fun w hw =>
    (mem_append.mp hw).elim (all_findAll p v w) (all_findInFields p fs w)

end

/-! ### Lines -/

def isLine (step : Value) : Bool :=
  ["make", "show", "return", "ask", "call"].contains (firstWord (verbOf step))

def holdsHeader (step : Value) : Bool := (headerOf? step (verbOf step)).isSome

def isPlainLine (step : Value) : Bool := isLine step && !holdsHeader step

theorem isObj_of_isLine (v : Value) (h : isLine v) : v.isObj := by
  have hempty : ["make", "show", "return", "ask", "call"].contains (firstWord (strip "")) = false := by
    decide +kernel
  cases v with
  | obj fs => rfl
  | _ => exact absurd h (by rw [isLine, verbOf]; exact ne_of_eq_of_ne hempty Bool.false_ne_true)

theorem verbOf_ne_empty (h : isLine v) : (verbOf v).isEmpty = false := by
  have hempty : ["make", "show", "return", "ask", "call"].contains (firstWord "") = false := by
    decide +kernel
  cases hv : (verbOf v).isEmpty with
  | false => rfl
  | true =>
    rw [isLine, String.isEmpty_iff.mp hv, hempty] at h
    exact h.symm

theorem isPlainLine_of_not_isLine (h : isLine v = false) : isPlainLine v = false := by
  rw [isPlainLine, h, Bool.false_and]

theorem isPlainLine_of_not_isObj (h : v.isObj = false) : isPlainLine v = false := by
  cases hline : isLine v with
  | false => exact isPlainLine_of_not_isLine hline
  | true => exact absurd (isObj_of_isLine v hline) (by simp [h])

theorem firstText_of_isLine (h : isLine v) : firstText v = verbOf v := by
  have hverb := verbOf_ne_empty h
  cases hfield : v.field "verb" with
  | str s =>
    rw [verbOf, hfield] at hverb ⊢
    change (strip s).isEmpty = false at hverb
    rw [firstText, filterMap_cons, hfield]
    simp only [Value.str?, Option.map_some, find?_cons, hverb, Bool.not_false, Option.getD_some]
  | _ =>
    have hempty : (strip "").isEmpty := by decide +kernel
    rw [verbOf, hfield] at hverb
    exact absurd hempty (ne_of_eq_of_ne hverb Bool.false_ne_true)

theorem holdsHeader_of_isHeader (h : isHeader (verbOf v)) : holdsHeader v := by
  have hstrip : strip (verbOf v) = verbOf v := strip_strip _
  rw [holdsHeader, headerOf?, headerSources, map_cons, hstrip, find?_cons_of_pos h]
  rfl

theorem isPlainLine_of_blank (h : (firstText v).isEmpty) : isPlainLine v = false := by
  cases hline : isLine v with
  | false => exact isPlainLine_of_not_isLine hline
  | true =>
    rw [firstText_of_isLine hline, verbOf_ne_empty hline] at h
    cases h

theorem isPlainLine_of_isHeader (h : isHeader (firstText v)) : isPlainLine v = false := by
  cases hline : isLine v with
  | false => exact isPlainLine_of_not_isLine hline
  | true =>
    rw [firstText_of_isLine hline] at h
    rw [isPlainLine, holdsHeader_of_isHeader h, Bool.not_true, Bool.and_false]

variable {rest : List Value}

theorem isPlainLine_of_findHeader {level : Int} {count passed blank : Nat}
    {found : StubSearch} (hle : blank ≤ passed)
    (h : findHeader level count passed blank rest = .ok found) :
    ∀ v ∈ rest.take (found.taken - passed), isPlainLine v = false := by
  induction rest generalizing count passed blank with
  | nil => exact fun v hv => absurd hv (by rw [take_nil]; exact not_mem_nil)
  | cons s rest ih =>
    -- a search that ends before this line takes none of the lines from here on
    have hnone : found.taken = blank → ∀ v ∈ (s :: rest).take (found.taken - passed),
        isPlainLine v = false := by
      intro htaken v hv
      rw [htaken, Nat.sub_eq_zero_of_le hle, take_zero] at hv
      cases hv
    -- one that goes on may take it
    have hnext : isPlainLine s = false →
        (∀ v ∈ rest.take (found.taken - (passed + 1)), isPlainLine v = false) →
        ∀ v ∈ (s :: rest).take (found.taken - passed), isPlainLine v = false := by
      intro hs hrest v hv
      cases htake : found.taken - passed with
      | zero => rw [htake, take_zero] at hv; exact absurd hv not_mem_nil
      | succ k =>
        rw [htake, take_succ_cons] at hv
        rcases mem_cons.mp hv with rfl | hv
        · exact hs
        · exact hrest v (by rwa [show found.taken - (passed + 1) = k by omega])
    cases count with
    | zero => exact hnone (congrArg StubSearch.taken (ok.inj h)).symm
    | succ count =>
      rw [findHeader] at h
      split at h
      · rename_i hobj
        have hobj : s.isObj = false := by simpa using hobj
        exact hnext (isPlainLine_of_not_isObj hobj) (ih (by omega) h)
      · obtain ⟨own, _, h⟩ := of_bind_ok h
        dsimp only at h
        split at h
        · rename_i hblank
          exact hnext (isPlainLine_of_blank hblank) (ih (by omega) h)
        · split at h
          · rename_i hheader
            have htaken : found.taken = passed + 1 := (congrArg StubSearch.taken (ok.inj h)).symm
            exact hnext (isPlainLine_of_isHeader hheader)
              (by rw [htaken, Nat.sub_self]; exact fun v hv => nomatch hv)
          · exact hnone (congrArg StubSearch.taken (ok.inj h)).symm

/-! ### Reading the steps -/

variable {step : Value}

theorem exists_of_openLoop (b : Nest Value) (level own : Int) (step args : Value) :
    ∃ b' : Nest Value, (b.toBuilder.leave level).openLoop own args = b'.toBuilder ∧
      statements b'.entries = statements b.entries := by
  refine ⟨(b.leave level).openLoop own step args, ?_, ?_⟩
  · rw [toBuilder_openLoop, toBuilder_leave]
  · rw [entries_openLoop, entries_leave, statements_append]
    exact append_nil _

variable {b : Nest Value} {c : Builder}

/-- What one step of the outline does: it is read as a statement, which comes
    last, or it adds none, is no plain line and uses up none. -/
theorem exists_of_buildStep {taken : Nat} (h : buildStep b.toBuilder step rest = .ok (c, taken)) :
    ∃ b' : Nest Value, c = b'.toBuilder ∧
      ((∃ s : Statement Value, s.origin = step ∧ holdsHeader step = false ∧ taken = 0 ∧
          readLine (verbOf step) (step.field "expr") = .ok s.step ∧
          statements b'.entries = statements b.entries ++ [s]) ∨
        (isPlainLine step = false ∧ (∀ v ∈ rest.take taken, isPlainLine v = false) ∧
          statements b'.entries = statements b.entries)) := by
  cases takes_of_buildStep h with
  | other hobj =>
    exact ⟨b, rfl, .inr ⟨isPlainLine_of_not_isObj hobj, fun v hv => (not_mem_nil hv).elim, rfl⟩⟩
  | header hheader hargs hadd =>
    obtain ⟨b', rfl, hlist⟩ := exists_of_addHeader step hadd
    refine ⟨b', rfl, .inr ⟨?_, fun v hv => (not_mem_nil hv).elim, hlist⟩⟩
    rw [isPlainLine, holdsHeader, hheader, Option.isSome_some, Bool.not_true, Bool.and_false]
  | @stub level upTo own found args hrepeat hheader hfound hargs =>
    have hplain : isPlainLine step = false := by
      rw [isPlainLine, isLine, hrepeat]
      rfl
    have hused := isPlainLine_of_findHeader (Nat.le_refl 0) hfound
    rw [Nat.sub_zero] at hused
    obtain ⟨b', hb', hlist⟩ := exists_of_openLoop b upTo own step args
    exact ⟨b', hb', .inr ⟨hplain, hused, hlist⟩⟩
  | @line level s hheader hread =>
    let read : Statement Value := ⟨step, s, isStatement_of_readLine hread⟩
    refine ⟨(b.leave level).push (.line read), ?_, .inl ⟨read, rfl, ?_, rfl, hread, ?_⟩⟩
    · rw [toBuilder_push, toBuilder_leave]
      rfl
    · rw [holdsHeader, hheader]
      rfl
    · rw [entries_push, entries_leave, statements_append]
      rfl

def ReadFrom (steps : List Value) (s : Statement Value) : Prop :=
  s.origin ∈ steps ∧ readLine (verbOf s.origin) (s.origin.field "expr") = .ok s.step

theorem ReadFrom.cons {s : Statement Value} (step : Value) (h : ReadFrom steps s) :
    ReadFrom (step :: steps) s :=
  ⟨mem_cons_of_mem step h.1, h.2⟩

/-- All steps together add a statement for each plain line, in the same order,
    and those for steps that are no lines. -/
theorem exists_of_buildSteps {skip : Nat} (hskip : ∀ v ∈ steps.take skip, isPlainLine v = false)
    (h : buildSteps b.toBuilder skip steps = .ok c) :
    ∃ (b' : Nest Value) (new : List (Statement Value)), c = b'.toBuilder ∧
      statements b'.entries = statements b.entries ++ new ∧
      (new.map Statement.origin).filter isLine = steps.filter isPlainLine ∧
      ∀ s ∈ new, ReadFrom steps s := by
  induction steps generalizing b skip with
  | nil =>
    rw [buildSteps] at h
    refine ⟨b, [], (ok.inj h).symm, (append_nil _).symm, ?_, ?_⟩
    · rw [map_nil, filter_nil, filter_nil]
    · exact fun s hs => absurd hs not_mem_nil
  | cons step rest ih =>
    cases skip with
    | succ k =>
      -- A step that an earlier one used up adds nothing, and is no plain line.
      rw [take_succ_cons] at hskip
      rw [buildSteps] at h
      obtain ⟨b', new, rfl, hlist, hlines, hread⟩ :=
        ih (fun v hv => hskip v (mem_cons_of_mem step hv)) h
      refine ⟨b', new, rfl, hlist, ?_, fun s hs => (hread s hs).cons step⟩
      rw [hlines, filter_cons_of_neg]
      rw [hskip step mem_cons_self]
      exact Bool.false_ne_true
    | zero =>
      rw [buildSteps] at h
      obtain ⟨⟨c', taken⟩, hstep, h⟩ := of_bind_ok h
      obtain ⟨b₁, rfl, hcase⟩ := exists_of_buildStep hstep
      rcases hcase with ⟨s, rfl, hheader, rfl, hs, hlist₁⟩ | ⟨hplain, hused, hlist₁⟩
      · have hnothing : ∀ v ∈ rest.take 0, isPlainLine v = false := by simp
        obtain ⟨b', new, rfl, hlist, hlines, hread⟩ := ih hnothing h
        refine ⟨b', s :: new, rfl, ?_, ?_, ?_⟩
        · rw [hlist, hlist₁, append_assoc]
          rfl
        · have hown : isPlainLine s.origin = isLine s.origin := by
            rw [isPlainLine, hheader, Bool.not_false, Bool.and_true]
          rw [map_cons, filter_cons, filter_cons, hown, hlines]
        · intro r hr
          rcases mem_cons.mp hr with rfl | hr
          · exact ⟨mem_cons_self, hs⟩
          · exact (hread r hr).cons s.origin
      · obtain ⟨b', new, rfl, hlist, hlines, hread⟩ := ih hused h
        refine ⟨b', new, rfl, by rw [hlist, hlist₁], ?_, fun s hs => (hread s hs).cons step⟩
        rw [hlines, filter_cons_of_neg (by simp [hplain])]

theorem exists_of_buildFlow {flow : List Value} (h : buildFlow (.list steps) = .ok flow) :
    ∃ forest : List (Node Value), flow = toValues forest ∧
      ((statements (entriesOf forest)).map Statement.origin).filter isLine
        = steps.filter isPlainLine ∧ ∀ s ∈ statements (entriesOf forest), ReadFrom steps s := by
  have hnothing : ∀ v ∈ steps.take 0, isPlainLine v = false := by simp
  obtain ⟨c, hc, h⟩ := of_bind_ok (show buildSteps {} 0 steps >>= _ = .ok flow from h)
  obtain ⟨b, new, rfl, hlist, hlines, hread⟩ := exists_of_buildSteps (b := {}) hnothing hc
  have hnew : statements (entriesOf b.forest) = new := by rw [entriesOf_forest, hlist]; rfl
  refine ⟨b.forest, ?_, by rw [hnew, hlines], by rw [hnew]; exact hread⟩
  rw [toValues_forest]
  exact (ok.inj h).symm

/-! ### The condition -/

/-- Every line of the steps, at every depth, has a statement of its own. -/
def KeepsLines (steps : List Value) (forest : List (Node Value)) : Prop :=
  (findInList isLine steps).Subperm ((statements (entriesOf forest)).map Statement.origin)

theorem keepsLines_iff {forest : List (Node Value)}
    (h : (((statements (entriesOf forest)).map Statement.origin).filter isLine).Perm
      (steps.filter isPlainLine)) : KeepsLines steps forest ↔
      (∀ step ∈ steps, findBelow isLine step = []) ∧
        ∀ step ∈ steps, isLine step → holdsHeader step = false := by
  have hfind := findInList_perm isLine isObj_of_isLine steps
  constructor
  · intro hkeep
    -- Restricted to lines, both sides can be counted: the kept ones are the plain ones.
    have hall : (findInList isLine steps).filter isLine = findInList isLine steps :=
      filter_eq_self.mpr (all_findInList isLine steps)
    have hle := (hkeep.filter isLine).length_le
    rw [hall, h.length_eq, hfind.length_eq, length_append] at hle
    have hplain : steps.filter isPlainLine = (steps.filter isLine).filter (!holdsHeader ·) := by
      rw [filter_filter]
      exact filter_congr fun v _ => Bool.and_comm _ _
    have hfewer : (steps.filter isPlainLine).length ≤ (steps.filter isLine).length := by
      rw [hplain]
      exact length_filter_le _ _
    constructor
    · have hnil : steps.flatMap (findBelow isLine) = [] := eq_nil_of_length_eq_zero (by omega)
      exact flatMap_eq_nil_iff.mp hnil
    · intro step hmem hline
      have hlen : ((steps.filter isLine).filter (!holdsHeader ·)).length
          = (steps.filter isLine).length := by
        rw [← hplain]
        omega
      have hstep := length_filter_eq_length_iff.mp hlen step
        (mem_filter.mpr ⟨hmem, hline⟩)
      simpa using hstep
  · rintro ⟨hbelow, hheader⟩
    have hlines : steps.filter isPlainLine = steps.filter isLine := by
      refine filter_congr fun v hv => ?_
      cases hline : isLine v with
      | false => exact isPlainLine_of_not_isLine hline
      | true => rw [isPlainLine, hline, hheader v hv hline]; rfl
    rw [flatMap_eq_nil_iff.mpr hbelow, append_nil, ← hlines] at hfind
    exact (hfind.trans h.symm).subperm.trans filter_sublist.subperm

def isChoose (step : Value) : Bool := hasVerb "Choose" step

mutual

/-- A node and those in its block, at every depth. -/
def nodesIn : Node Value → List (Node Value)
  | .line s => [.line s]
  | .loop origin args block => .loop origin args block :: nodesInList block

def nodesInList : List (Node Value) → List (Node Value)
  | [] => []
  | n :: ns => nodesIn n ++ nodesInList ns

end

/-- Where the steps have a `Choose`, at any depth, the flow has one, whatever its
    branches are. -/
def KeepsChoices (steps : List Value) (forest : List (Node Value)) : Prop :=
  ∀ step ∈ findInList isChoose steps, ∃ n ∈ nodesInList forest, isChoose n.toValue = true

theorem isChoose_toValue (n : Node Value) : isChoose n.toValue = false := by
  cases n with
  | line s =>
    obtain ⟨verb, args, hs, hverb⟩ := s.isStatement
    rw [toValue, hs]
    simp only [mem_cons, not_mem_nil, or_false] at hverb
    rcases hverb with rfl | rfl | rfl | rfl | rfl <;> rfl
  | loop _ _ _ => rfl

theorem keepsChoices_iff (steps : List Value) (forest : List (Node Value)) :
    KeepsChoices steps forest ↔ findInList isChoose steps = [] := by
  constructor
  · intro hkeep
    refine eq_nil_iff_forall_not_mem.mpr fun step hstep => ?_
    obtain ⟨n, _, hn⟩ := hkeep step hstep
    exact absurd hn (by simp [isChoose_toValue])
  · intro hnone step hstep
    rw [hnone] at hstep
    cases hstep

/-! ### The module of an outline -/

theorem exists_of_ofTree {tree m : Value} (hsteps : tree.field "Flow" = stepsBody steps)
    (h : Module.ofTree tree = .ok m) :
    ∃ flow canon, buildFlow (.list steps) = .ok flow ∧ canonical flow = .ok canon ∧
      m.field "flow" = .list canon := by
  rw [Module.ofTree] at h
  split at h
  · cases h
  · obtain ⟨inputs, _, h⟩ := of_bind_ok h
    obtain ⟨outputs, _, h⟩ := of_bind_ok h
    obtain ⟨raw, hraw, h⟩ := of_bind_ok h
    obtain ⟨flow, hflow, h⟩ := of_bind_ok h
    obtain ⟨canon, hcanon, h⟩ := of_bind_ok h
    obtain ⟨tests, _, h⟩ := of_bind_ok h
    refine ⟨flow, canon, ?_, hcanon, ?_⟩
    · rw [hsteps] at hraw
      have hraw : raw = .list steps := (ok.inj hraw).symm
      rw [hraw] at hflow
      cases steps with
      | nil | cons _ _ => exact hflow
    · cases h
      split <;> rfl

theorem exists_of_treeOf {text : String} {tree : Value} (h : treeOf text = .ok tree) :
    ∃ steps, tree.field "Flow" = stepsBody steps := by
  obtain ⟨nested, _, h⟩ := of_bind_ok h
  obtain ⟨s, _, h⟩ := of_bind_ok h
  obtain ⟨grouped, _, h⟩ := of_bind_ok h
  exact ⟨grouped, by rw [← ok.inj h]; rfl⟩

/-- The module of an outline keeps every line and every `Choose` of its tree
    exactly if no line stands inside a step, no outermost line is read as a loop
    header, and there is no `Choose`. Kept are the plain lines outside, each with
    a statement of its own. -/
theorem ofText_keeps_iff {text : String} {m : Value} (h : Module.ofText text = .ok m) :
    ∃ (tree : Value) (steps : List Value) (forest : List (Node Value)),
      treeOf text = .ok tree ∧ tree.field "Flow" = stepsBody steps ∧
      m.field "flow" = .list (toValues forest) ∧
      (∀ s ∈ statements (entriesOf forest), ReadFrom steps s) ∧
      (((statements (entriesOf forest)).map Statement.origin).filter isLine).Perm
        (steps.filter isPlainLine) ∧ (KeepsLines steps forest ∧ KeepsChoices steps forest ↔
        (∀ step ∈ steps, findBelow isLine step = []) ∧
        (∀ step ∈ steps, isLine step = true → holdsHeader step = false) ∧
        findInList isChoose steps = []) := by
  obtain ⟨tree, htree, h⟩ := of_bind_ok h
  obtain ⟨steps, hsteps⟩ := exists_of_treeOf htree
  obtain ⟨flow, canon, hflow, hcanon, hm⟩ := exists_of_ofTree hsteps h
  obtain ⟨built, rfl, hlines, hread⟩ := exists_of_buildFlow hflow
  obtain ⟨forest, hforest, hre⟩ := canonical_toValues built
  have hsame := hre.filterMap Entry.statement?
  have hkept : (((statements (entriesOf forest)).map Statement.origin).filter isLine).Perm
      (steps.filter isPlainLine) := by
    rw [← hlines]
    exact ((hsame.map Statement.origin).filter isLine).symm
  refine ⟨tree, steps, forest, htree, hsteps, ?_, ?_, hkept, ?_⟩
  · rw [hm, ok.inj (hcanon.symm.trans hforest)]
  · exact fun s hs => hread s (hsame.mem_iff.mpr hs)
  · rw [keepsLines_iff hkept, keepsChoices_iff, and_assoc]

/-- A repetition whose header stands beside its verb, with one line in its body. -/
def fusedLoop : String := "I. Module: T\nD. Flow\n  1. Repeat for i in 1..3:\n    a. Show i\n"

/-- Whether a line stands inside a step of an outline's tree. -/
def hasLineInside (text : String) : Bool := match treeOf text with
  | .ok tree =>
    match (tree.field "Flow").field "steps" with
    | .list steps => steps.any fun step => !(findBelow isLine step).isEmpty
    | _ => false
  | .error _ => false

/-- The body of such a repetition is not in the module. -/
theorem ofText_keeps_iff_fusedLoop :
    ∃ (m tree : Value) (steps : List Value) (forest : List (Node Value)),
      Module.ofText fusedLoop = .ok m ∧ treeOf fusedLoop = .ok tree ∧
      tree.field "Flow" = stepsBody steps ∧ m.field "flow" = .list (toValues forest) ∧
      ¬(KeepsLines steps forest ∧ KeepsChoices steps forest) := by
  have hok : (Module.ofText fusedLoop).isOk = true := by decide +kernel
  have hinside : hasLineInside fusedLoop = true := by decide +kernel
  cases hm : Module.ofText fusedLoop with
  | error e => rw [hm] at hok; exact absurd hok Bool.false_ne_true
  | ok m =>
    obtain ⟨tree, steps, forest, htree, hsteps, hflow, _, _, hiff⟩ := ofText_keeps_iff hm
    refine ⟨m, tree, steps, forest, rfl, htree, hsteps, hflow, fun hkeep => ?_⟩
    rw [hasLineInside, htree] at hinside
    simp only [hsteps] at hinside
    obtain ⟨step, hstep, hbelow⟩ := List.any_eq_true.mp hinside
    rw [(hiff.mp hkeep).1 step hstep] at hbelow
    cases hbelow

end Loom.Flow
