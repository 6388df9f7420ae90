import Loom.Outline.Tree

/-!
# Tokens on Their Way to a Tree

The passes from tokens to a tree read documents, whose fields may be missing or
of another sort, and so each of them can fail. Tokens that come from an outline
have all their fields. Here such a token is a `Mark`, and the passes are shown
never to fail on a list of marks, in whatever order they come: clauses can be
nested, and the sections can be read.

What stands under other headings than that of the flow does not reach it. A
heading `Flow` starts the flow afresh, and headings of other sections leave it as
it is.
-/

namespace Loom.Outline

open Loom.Text List

variable {s : ClauseState}

theorem toText_orElse (s member : String) :
    ((Value.str s).orElse (.str "")).toText member = .ok s := by
  rw [Value.orElse]
  by_cases h : (Value.str s).truthy = true
  · rw [if_pos h]
    rfl
  · have hempty : s = "" := by simpa [Value.truthy] using h
    rw [if_neg h, hempty]
    rfl

/-- A token as the passes hand it on. -/
structure Mark where
  type : String
  value : String
  nesting : Int

namespace Mark

def fields (m : Mark) : Fields Value :=
  [("type", .str m.type), ("value", .str m.value), ("nesting", .int m.nesting)]

def toValue (m : Mark) : Value := .obj m.fields

def isHeading (m : Mark) : Bool := m.type == "SECTION"

/-- A mark at least as deep as `level`. -/
def deepen (m : Mark) (level : Int) : Mark :=
  if m.nesting < level then { m with nesting := level } else m

def read (m : Mark) : ReadToken :=
  ⟨m.fields, .str m.type, m.value, lower (strip m.value), m.nesting⟩

theorem of_toValue (m : Mark) : ReadToken.of m.toValue = .ok m.read := by
  have hvalue : ((m.fields.getD "value" .null).orElse (.str "")).toText "strip" = .ok m.value :=
    toText_orElse m.value "strip"
  rw [ReadToken.of]
  change (do let value ← ((m.fields.getD "value" .null).orElse (.str "")).toText "strip"
             pure (ReadToken.mk m.fields (.str m.type) value (lower (strip value)) m.nesting)) = _
  rw [hvalue]
  rfl

theorem require_type (m : Mark) : m.toValue.require "type" = .ok (.str m.type) := rfl

theorem fieldD_value (m : Mark) : m.toValue.fieldD "value" (.str "") = .str m.value := rfl

theorem fieldD_nesting (m : Mark) : m.toValue.fieldD "nesting" (.int 0) = .int m.nesting := rfl

theorem toText_strip (m : Mark) : (Value.str m.value).toText "strip" = .ok m.value := rfl

theorem isAmong_type (m : Mark) (ss : List String) :
    isAmong (.str m.type) ss = .ok (ss.contains m.type) :=
  rfl

theorem deepen_read (m : Mark) (level : Int) : m.read.deepen level = (m.deepen level).fields := by
  rw [ReadToken.deepen, deepen]
  change (if m.nesting < level then _ else _) = _
  split <;> rfl

end Mark

def Token.mark (t : Token) : Mark := ⟨t.kind.name, t.value, t.nesting⟩

/-! ### Clauses -/

variable {m : Mark}

namespace ClauseState

/-- A header is expected after a verb only. -/
def IsSafe (s : ClauseState) : Prop := s.expectsHeader = true → s.done ≠ []

/-- What a token does to those before it: it is kept as a mark, or joined to the last one. -/
def Adds (m : Mark) (s s' : ClauseState) : Prop :=
  (∃ kept : Mark, (kept.isHeading → m.isHeading) ∧ s'.done = kept.fields :: s.done) ∨
    ∃ last before value, ∃ level : Int, s.done = last :: before ∧
      s'.done = (last.put "value" (.str value)).put "nesting" (.int level) :: before

theorem adds_keep (s : ClauseState) (inFlow : Bool) (opened : OpenBlock) :
    Adds m s ({ s with inFlow := inFlow, opened := opened }.keep m.fields) :=
  .inl ⟨m, id, rfl⟩

theorem adds_deepen (s : ClauseState) (level : Int) : Adds m s (s.keep (m.read.deepen level)) := by
  refine .inl ⟨m.deepen level, fun h => ?_, by rw [Mark.deepen_read]; rfl⟩
  rw [Mark.deepen] at h
  split at h <;> exact h

theorem lastVerb?_of_done {rest : List (Fields Value)} (h : s.done = m.fields :: rest) :
    s.lastVerb? = if m.type == "VERB" then some m.fields else none := by
  rw [lastVerb?, h]
  rfl

variable {ms : List Mark}

theorem exists_followsBodyVerb (h : s.done = ms.map Mark.fields) :
    ∃ b, s.followsBodyVerb = .ok b := by
  rw [followsBodyVerb]
  cases ms with
  | nil =>
    rw [lastVerb?, h]
    exact ⟨false, rfl⟩
  | cons m ms =>
    rw [lastVerb?_of_done h]
    cases m.type == "VERB" with
    | false => exact ⟨false, rfl⟩
    | true => exact ⟨_, rfl⟩

theorem exists_underChoose (h : s.done = ms.map Mark.fields) (m : Mark) (level : Int) :
    ∃ s', s.underChoose m.read level = .ok s' ∧ Adds m s s' := by
  obtain ⟨body, hbody⟩ := exists_followsBodyVerb h
  have hamong : isAmong m.read.type ["VERB", "EXPR"] = .ok (["VERB", "EXPR"].contains m.type) := rfl
  rw [underChoose, hamong, hbody]
  split
  · exact ⟨_, rfl, s.adds_keep s.inFlow .none⟩
  · dsimp only [bind, Except.bind]
    split
    · exact ⟨_, rfl, .inl ⟨⟨"VERB", m.read.plain, max m.nesting (level + 1)⟩, nofun, rfl⟩⟩
    · split
      · exact ⟨_, rfl, s.adds_deepen _⟩
      · split
        · exact ⟨_, rfl, s.adds_deepen _⟩
        · exact ⟨_, rfl, s.adds_keep s.inFlow s.opened⟩

theorem adds_underLoop (s : ClauseState) (level : Int) : Adds m s (s.underLoop m.read level) := by
  rw [underLoop]
  split
  · exact s.adds_keep s.inFlow .none
  · split
    · exact s.adds_deepen _
    · exact s.adds_keep s.inFlow s.opened

theorem adds_joinHeader (h : s.done ≠ []) (t : ReadToken) (level : Int) :
    Adds m s (s.joinHeader t level) := by
  obtain ⟨last, rest, hdone⟩ := exists_cons_of_ne_nil h
  refine .inr ⟨last, rest, "Repeat " ++ strip t.value, level, hdone, ?_⟩
  rw [joinHeader, hdone]

theorem exists_step (hs : s.IsSafe) (h : s.done = ms.map Mark.fields) (m : Mark) :
    ∃ s', s.step m.toValue = .ok s' ∧ Adds m s s' := by
  rw [step, m.of_toValue]
  dsimp only [bind, Except.bind]
  split
  · exact ⟨_, rfl, s.adds_keep _ .none⟩
  · split
    · exact ⟨_, rfl, s.adds_keep s.inFlow s.opened⟩
    · split
      · exact ⟨_, rfl, s.adds_keep s.inFlow _⟩
      · split
        · exact ⟨_, rfl, .inl ⟨m, id, rfl⟩⟩
        · split
          · exact exists_underChoose h m _
          · split
            · rename_i hheader
              simp only [Bool.and_eq_true] at hheader
              exact ⟨_, rfl, adds_joinHeader (hs hheader.1.1) m.read _⟩
            · exact ⟨_, rfl, s.adds_underLoop _⟩
          · exact ⟨_, rfl, s.adds_keep s.inFlow s.opened⟩

namespace Adds

variable {s' : ClauseState}

theorem isSafe (h : Adds m s s') : s'.IsSafe := by
  rcases h with ⟨_, _, hdone⟩ | ⟨_, _, _, _, _, hdone⟩
  all_goals
    intro _
    rw [hdone]
    exact cons_ne_nil _ _

theorem exists_marks (h : Adds m s s') (hms : s.done = ms.map Mark.fields) :
    ∃ ms' : List Mark, s'.done = ms'.map Mark.fields ∧
      (m.isHeading = false → (∀ m ∈ ms, m.isHeading = false) → ∀ m ∈ ms', m.isHeading = false) := by
  rcases h with ⟨kept, hkept, hdone⟩ | ⟨last, before, value, level, hlast, hdone⟩
  · refine ⟨kept :: ms, by rw [hdone, hms]; rfl, fun hm hplain => forall_mem_cons.mpr ⟨?_, hplain⟩⟩
    exact Bool.eq_false_iff.mpr fun h => Bool.eq_false_iff.mp hm (hkept h)
  · rw [hms] at hlast
    obtain ⟨b, rest, rfl, rfl, rfl⟩ := map_eq_cons_iff.mp hlast
    refine ⟨⟨b.type, value, level⟩ :: rest, hdone, fun _ hplain => ?_⟩
    exact forall_mem_cons.mpr (forall_mem_cons.mp hplain)

end Adds

theorem exists_foldlM (hs : s.IsSafe) (h : s.done = ms.map Mark.fields) (next : List Mark) :
    ∃ (s' : ClauseState) (ms' : List Mark),
      (next.map Mark.toValue).foldlM step s = .ok s' ∧ s'.done = ms'.map Mark.fields := by
  induction next generalizing s ms with
  | nil => exact ⟨s, ms, rfl, h⟩
  | cons m next ih =>
    obtain ⟨s₁, hstep, hadds⟩ := exists_step hs h m
    obtain ⟨ms₁, h₁, _⟩ := hadds.exists_marks h
    obtain ⟨s', ms', hrun, h'⟩ := ih hadds.isSafe h₁
    refine ⟨s', ms', ?_, h'⟩
    rw [map_cons, foldlM_cons, hstep]
    exact hrun

end ClauseState

/-! ### Sections -/

/-- The open blocks lie at levels that are numbers. -/
def FlowStack.HasLevels (s : FlowStack) : Prop := ∀ f ∈ s.blocks, ∃ n : Int, f.level = .int n

theorem FlowStack.exists_leave (level : Int) (outer : List Value) (blocks : List Frame)
    (h : ∀ f ∈ blocks, ∃ n : Int, f.level = .int n) (inner : List Value) :
    ∃ s, leave (.int level) inner outer blocks = .ok s ∧ s.HasLevels := by
  induction blocks generalizing inner with
  | nil => exact ⟨_, rfl, forall_mem_nil _⟩
  | cons f blocks ih =>
    obtain ⟨n, hn⟩ := h f mem_cons_self
    have hcompare : Value.compareBy .ge (.int n) (.int level)
        = .ok (Value.Order.ge.holds (some (compare n level))) := rfl
    rw [leave, hn, hcompare]
    cases Value.Order.ge.holds (some (compare n level)) with
    | true => exact ih (fun g hg => h g (mem_cons_of_mem f hg)) _
    | false =>
      refine ⟨_, rfl, fun g hg => ?_⟩
      rcases mem_cons.mp hg with rfl | hg
      · exact ⟨n, hn⟩
      · exact h g (mem_cons_of_mem f hg)

theorem FlowStack.HasLevels.exists_add {s : FlowStack} (h : s.HasLevels) (step : Value)
    (level : Int) : ∃ s', s.add step (.int level) = .ok s' ∧ s'.HasLevels := by
  obtain ⟨left, hleave, hlevels⟩ := exists_leave level s.outer s.blocks h []
  rw [add, hleave]
  dsimp only [bind, Except.bind]
  split
  · refine ⟨_, rfl, fun f hf => ?_⟩
    rcases mem_cons.mp hf with rfl | hf
    · exact ⟨level, rfl⟩
    · exact hlevels f hf
  · refine ⟨_, rfl, ?_⟩
    rcases left with ⟨_ | ⟨g, blocks⟩, outer⟩
    · exact forall_mem_nil _
    · intro f hf
      rcases mem_cons.mp hf with rfl | hf
      · exact hlevels g mem_cons_self
      · exact hlevels f (mem_cons_of_mem g hf)

/-- A token takes the next one along at most, and never a heading. -/
def TakesAlong (rest : List Mark) (taken : Nat) : Prop :=
  taken = 0 ∨ ∃ next more, rest = next :: more ∧ next.isHeading = false ∧ taken = 1

/-- Reading goes on in the same section, and a flow that is not being read stays
    as it is. -/
def GoesOn (s : TreeState) (rest : List Mark) (r : Except Error (TreeState × Nat)) : Prop :=
  ∃ s' taken, r = .ok (s', taken) ∧ TakesAlong rest taken ∧ s'.current = s.current ∧
    s'.flow.HasLevels ∧ (s.isIn .flow = false → s'.flow = s.flow)

theorem goesOn_of_same {s s' : TreeState} {rest : List Mark} {taken : Nat}
    (h : s.flow.HasLevels) (hcurrent : s'.current = s.current) (hflow : s'.flow = s.flow)
    (htaken : TakesAlong rest taken) : GoesOn s rest (.ok (s', taken)) :=
  ⟨s', taken, rfl, htaken, hcurrent, by rw [hflow]; exact h, fun _ => hflow⟩

theorem goesOn_ite {s : TreeState} {rest : List Mark} {c : Bool}
    {x y : Except Error (TreeState × Nat)} (hx : c → GoesOn s rest x)
    (hy : c = false → GoesOn s rest y) : GoesOn s rest (if c = true then x else y) := by
  cases c with
  | true => exact hx rfl
  | false => exact hy rfl

theorem takesAlong_of_type {next : Mark} {type : String} (more : List Mark)
    (htype : (Value.str next.type).isText type) (hother : (type == "SECTION") = false) :
    TakesAlong (next :: more) 1 := by
  refine .inr ⟨next, more, rfl, ?_, rfl⟩
  rw [Mark.isHeading, LawfulBEq.eq_of_beq htype]
  exact hother

theorem exists_declaration? (name : String) (rest : List Mark) :
    ∃ d, declaration? name (rest.map Mark.toValue) = .ok d ∧
      (d.isSome → TakesAlong rest 1) := by
  cases rest with
  | nil => exact ⟨none, rfl, nofun⟩
  | cons next more =>
    rw [map_cons, declaration?, next.require_type]
    dsimp only [bind, Except.bind]
    split
    · rename_i htype
      exact ⟨_, rfl, fun _ => takesAlong_of_type more htype (by decide)⟩
    · exact ⟨none, rfl, nofun⟩

theorem exists_exprAfter? (level : Value) (rest : List Mark) :
    ∃ e, exprAfter? level (rest.map Mark.toValue) = .ok e ∧
      (e.isSome → TakesAlong rest 1) := by
  cases rest with
  | nil => exact ⟨none, rfl, nofun⟩
  | cons next more =>
    have hnesting : next.toValue.require "nesting" = .ok (.int next.nesting) := rfl
    rw [map_cons, exprAfter?, next.require_type, hnesting]
    dsimp only [bind, Except.bind]
    split
    · exact ⟨none, rfl, nofun⟩
    · rename_i htype
      split
      · exact ⟨none, rfl, nofun⟩
      · refine ⟨_, rfl, fun _ => @takesAlong_of_type next "EXPR" more ?_ (by decide)⟩
        simpa using htype

/-- What a token of the flow does to it: the steps after it, and how many of the
    tokens after it were taken along. -/
def FlowStack.readMark (f : FlowStack) (m : Mark) (rest : List Value) :
    Except Error (FlowStack × Nat) :=
  if m.type == "VERB" then
    match splitJoined? m.value with
    | some header => do
      let f ← f.add (TreeState.verbStep "repeat" (some (strip header)) (.int m.nesting))
        (.int m.nesting)
      pure (f, 0)
    | none => do
      let expr ← exprAfter? (.int m.nesting) rest
      let f ← f.add (TreeState.verbStep (lower (strip m.value)) expr (.int m.nesting))
        (.int m.nesting)
      pure (f, if expr.isSome then 1 else 0)
  else if ["EXPR", "VALUE", "IDENTIFIER"].contains m.type then do
    let f ← f.add (TreeState.lineStep m.value (.int m.nesting)) (.int m.nesting)
    pure (f, 0)
  else pure (f, 0)

theorem readToken_mark {s : TreeState} (hin : s.current = some Section.flow.title)
    (hm : m.isHeading = false) (rest : List Value) : readToken s m.toValue rest
      = (s.flow.readMark m rest).map fun r => ({ s with flow := r.1 }, r.2) := by
  have hsection : (Value.str m.type).isText "SECTION" = false := hm
  have hverb : (Value.str m.type).isText "VERB" = (m.type == "VERB") := rfl
  have hline := toText_orElse m.value "strip"
  have hin : ∀ sec : Section, s.isIn sec = (sec == .flow) := by
    intro sec
    rw [TreeState.isIn, hin]
    cases sec <;> rfl
  rw [readToken, m.require_type, FlowStack.readMark]
  dsimp only [bind, Except.bind, pure, Except.pure]
  simp only [m.fieldD_value, m.fieldD_nesting, m.toText_strip, m.isAmong_type, hin, hsection, hverb,
    hline]
  cases m.type == "VERB" with
  | true =>
    cases splitJoined? m.value with
    | some header =>
      dsimp
      cases s.flow.add _ _ <;> rfl
    | none =>
      dsimp
      cases exprAfter? (.int m.nesting) rest with
      | error e => rfl
      | ok expr =>
        dsimp
        cases s.flow.add _ _ <;> rfl
  | false =>
    dsimp
    cases ["EXPR", "VALUE", "IDENTIFIER"].contains m.type with
    | true =>
      dsimp
      cases s.flow.add _ _ <;> rfl
    | false => rfl

theorem FlowStack.HasLevels.exists_readMark {f : FlowStack} (h : f.HasLevels) (m : Mark)
    (rest : List Mark) : ∃ f' taken, f.readMark m (rest.map Mark.toValue) = .ok (f', taken) ∧
      TakesAlong rest taken ∧ f'.HasLevels := by
  rw [readMark]
  split
  · split
    · rename_i header _
      obtain ⟨f', hadd, hf'⟩ := h.exists_add
        (TreeState.verbStep "repeat" (some (strip header)) (.int m.nesting)) m.nesting
      exact ⟨f', 0, by rw [hadd]; rfl, .inl rfl, hf'⟩
    · obtain ⟨expr, hexpr, htakes⟩ := exists_exprAfter? (.int m.nesting) rest
      obtain ⟨f', hadd, hf'⟩ := h.exists_add
        (TreeState.verbStep (lower (strip m.value)) expr (.int m.nesting)) m.nesting
      refine ⟨f', if expr.isSome then 1 else 0,
        by rw [hexpr]; dsimp only [bind, Except.bind]; rw [hadd]; rfl, ?_, hf'⟩
      cases expr with
      | none => exact .inl rfl
      | some e => exact htakes rfl
  · split
    · obtain ⟨f', hadd, hf'⟩ := h.exists_add (TreeState.lineStep m.value (.int m.nesting)) m.nesting
      exact ⟨f', 0, by rw [hadd]; rfl, .inl rfl, hf'⟩
    · exact ⟨f, 0, rfl, .inl rfl, h⟩

theorem readToken_heading (s : TreeState) (h : m.isHeading) (rest : List Value) :
    readToken s m.toValue rest = .ok (s.openSection m.value, 0) := by
  have htype : m.type = "SECTION" := LawfulBEq.eq_of_beq h
  have hrequire : m.toValue.require "type" = .ok (.str "SECTION") := by rw [← htype]; rfl
  rw [readToken, hrequire]
  rfl

theorem TreeState.openTest_eq (s : TreeState) (key : String) :
    (s.openTest key).current = s.current ∧ (s.openTest key).flow = s.flow := by
  rw [openTest]
  split
  · cases s.test <;> exact ⟨rfl, rfl⟩
  · exact ⟨rfl, rfl⟩

theorem TreeState.setTest_eq (s : TreeState) (key value : String) :
    (s.setTest key value).current = s.current ∧ (s.setTest key value).flow = s.flow := by
  rw [setTest]
  split
  · exact ⟨rfl, rfl⟩
  · split <;> exact ⟨rfl, rfl⟩

theorem goesOn_declared {s : TreeState} (h : s.flow.HasLevels) {rest : List Mark}
    (decl : Option Value) (s' : Value → TreeState) (hcurrent : ∀ d, (s' d).current = s.current)
    (hflow : ∀ d, (s' d).flow = s.flow) :
    (decl.isSome → TakesAlong rest 1) → GoesOn s rest (match decl with
      | some d => .ok (s' d, 1)
      | none => .ok (s, 0)) := by
  intro htakes
  cases decl with
  | none => exact goesOn_of_same h rfl rfl (.inl rfl)
  | some d => exact goesOn_of_same h (hcurrent d) (hflow d) (htakes rfl)

theorem goesOn_openTest {s : TreeState} (h : s.flow.HasLevels) (key : String) (rest : List Mark) :
    GoesOn s rest (match rest.map Mark.toValue with
      | next :: _ => do
        if (← next.require "type").isText "VALUE" then
          let v ← (← next.require "value").toText "strip"
          pure ((s.openTest key).setTest key (strip v), 1)
        else pure (s.openTest key, 0)
      | [] => pure (s.openTest key, 0)) := by
  obtain ⟨hcurrent, hflow⟩ := s.openTest_eq key
  cases rest with
  | nil => exact goesOn_of_same h hcurrent hflow (.inl rfl)
  | cons next more =>
    have hvalue : next.toValue.require "value" = .ok (.str next.value) := rfl
    rw [map_cons]
    dsimp only
    rw [next.require_type, hvalue]
    dsimp only [bind, Except.bind]
    split
    · rename_i htype
      obtain ⟨hcurrent', hflow'⟩ := (s.openTest key).setTest_eq key (strip next.value)
      exact goesOn_of_same h (hcurrent'.trans hcurrent) (hflow'.trans hflow)
        (takesAlong_of_type more htype (by decide))
    · exact goesOn_of_same h hcurrent hflow (.inl rfl)

theorem goesOn_readToken {s : TreeState} (h : s.flow.HasLevels)
    (hm : m.isHeading = false) (rest : List Mark) :
    GoesOn s rest (readToken s m.toValue (rest.map Mark.toValue)) := by
  cases hin : s.isIn .flow with
  | true =>
    obtain ⟨f, taken, hread, htaken, hf⟩ := h.exists_readMark m rest
    rw [readToken_mark (LawfulBEq.eq_of_beq hin) hm, hread]
    exact ⟨_, taken, rfl, htaken, rfl, hf, fun hout => absurd (hout.symm.trans hin) nofun⟩
  | false =>
    have hsection : (Value.str m.type).isText "SECTION" = false := hm
    have hplain : ∀ sec, ∃ b, (if s.isIn sec = true then
        Except.ok (["VALUE", "IDENTIFIER"].contains m.type) else Except.ok false
          : Except Error Bool) = .ok b := by
      intro sec
      split <;> exact ⟨_, rfl⟩
    obtain ⟨inModule, hmodule⟩ := hplain .module
    obtain ⟨inPurpose, hpurpose⟩ := hplain .purpose
    obtain ⟨inVersion, hversion⟩ := hplain .version
    obtain ⟨decl, hdecl, htakes⟩ := exists_declaration? m.value rest
    have hsame : ∀ s' : TreeState, s'.current = s.current → s'.flow = s.flow →
        GoesOn s rest (.ok (s', 0)) := fun s' hc hf => goesOn_of_same h hc hf (.inl rfl)
    -- What a mark may fail at is settled above, so a chain of conditions is left. A verb
    -- and what is none go through the same chain.
    rw [readToken, m.require_type]
    dsimp only [bind, Except.bind, pure, Except.pure]
    simp only [m.fieldD_value, m.fieldD_nesting, m.toText_strip, m.isAmong_type, hsection, hmodule,
      hpurpose, hversion, hdecl, hin, Bool.false_and]
    refine goesOn_ite (fun _ => ?_) fun _ => ?_
    all_goals
      refine goesOn_ite nofun fun _ => ?_
      refine goesOn_ite (fun _ => hsame _ rfl rfl) fun _ => ?_
      refine goesOn_ite (fun _ => hsame _ rfl rfl) fun _ => ?_
      refine goesOn_ite (fun _ => hsame _ rfl rfl) fun _ => ?_
      refine goesOn_ite (fun _ => goesOn_declared h decl
        (fun d => { s with inputs := s.inputs ++ [d] }) (fun _ => rfl) (fun _ => rfl) htakes)
        fun _ => ?_
      refine goesOn_ite (fun _ => goesOn_declared h decl
        (fun d => { s with outputs := s.outputs ++ [d] }) (fun _ => rfl) (fun _ => rfl) htakes)
        fun _ => ?_
      exact goesOn_ite nofun fun _ => goesOn_ite nofun fun _ =>
        goesOn_ite (fun _ => goesOn_openTest h (lower (strip m.value)) rest) fun _ =>
          goesOn_ite (fun _ => hsame _ rfl rfl) fun _ => hsame s rfl rfl

/-! ### Headings -/

theorem readHeading_title (sec : Section) : readHeading sec.title = (sec.title, none) := by
  have hall : ∀ sec ∈ Section.all, readHeading sec.title = (sec.title, none) := by decide +kernel
  exact hall sec (by cases sec <;> decide)

variable {sec : Section}

theorem title_of_ne_flow (h : sec ≠ .flow) :
    (some sec.title == some Section.flow.title) = false ∧ (lower (strip sec.title) == "flow") = false := by
  have hall : ∀ sec ∈ Section.all, sec = .flow ∨
      (some sec.title == some Section.flow.title) = false ∧
        (lower (strip sec.title) == "flow") = false := by decide +kernel
  exact (hall sec (by cases sec <;> decide)).resolve_left h

theorem TreeState.openSection_title (s : TreeState) (sec : Section) :
    (s.openSection sec.title).current = some sec.title ∧
      (s.openSection sec.title).flow = if sec = .flow then {} else s.flow := by
  rw [openSection, readHeading_title]
  cases sec <;> exact ⟨rfl, rfl⟩

theorem TreeState.openSection_of_ne_flow (s : TreeState) (h : sec ≠ .flow) :
    (s.openSection sec.title).isIn .flow = false ∧ (s.openSection sec.title).flow = s.flow := by
  obtain ⟨hcurrent, hflow⟩ := s.openSection_title sec
  rw [if_neg h] at hflow
  rw [isIn, hcurrent]
  exact ⟨(title_of_ne_flow h).1, hflow⟩

theorem FlowStack.HasLevels.openSection {s : TreeState} (h : s.flow.HasLevels) (heading : String) :
    (s.openSection heading).flow.HasLevels := by
  rw [TreeState.openSection]
  dsimp only
  split
  · exact forall_mem_nil _
  · split
    · exact h
    · split
      · exact h
      · split
        · exact h
        · split
          · exact h
          · split <;> exact h

theorem readTokens_heading {s : TreeState} (h : s.flow.HasLevels) (before : List Mark)
    (hm : m.isHeading) (after : List Mark) {skip : Nat}
    (hskip : TakesAlong (before ++ m :: after) skip) :
    ∃ s' : TreeState, readTokens s skip ((before ++ m :: after).map Mark.toValue)
      = readTokens (s'.openSection m.value) 0 (after.map Mark.toValue) := by
  induction before generalizing s skip with
  | nil =>
    -- A heading is never taken along by the token before it.
    rcases hskip with rfl | ⟨next, more, hnext, hother, _⟩
    · refine ⟨s, ?_⟩
      rw [nil_append, map_cons, readTokens, readToken_heading s hm]
      rfl
    · obtain ⟨rfl, _⟩ := List.cons.inj hnext
      rw [hm] at hother
      cases hother
  | cons b before ih =>
    rw [cons_append, map_cons]
    rcases hskip with rfl | ⟨_, _, _, _, rfl⟩
    · rw [readTokens]
      cases hb : b.isHeading with
      | true =>
        rw [readToken_heading s hb]
        exact ih (h.openSection b.value) (.inl rfl)
      | false =>
        obtain ⟨s', taken, hread, htaken, _, hlevels, _⟩ :=
          goesOn_readToken h hb (before ++ m :: after)
        rw [hread]
        exact ih hlevels htaken
    · rw [readTokens]
      exact ih h (.inl rfl)

/-- The headings among some marks are those of other sections than the flow. -/
def AvoidsFlow (ms : List Mark) : Prop :=
  ∀ m ∈ ms, m.isHeading = true → ∃ sec : Section, sec ≠ .flow ∧ m.value = sec.title

theorem readTokens_after {s : TreeState} (h : s.flow.HasLevels) {ms : List Mark}
    (hout : s.isIn .flow = false ∨ ∀ m, ms.head? = some m → m.isHeading)
    (hms : AvoidsFlow ms) {skip : Nat} (hskip : TakesAlong ms skip) :
    ∃ s', readTokens s skip (ms.map Mark.toValue) = .ok s' ∧ s'.flow = s.flow := by
  induction ms generalizing s skip with
  | nil => exact ⟨s, rfl, rfl⟩
  | cons m ms ih =>
    have hrest : AvoidsFlow ms := fun b hb => hms b (mem_cons_of_mem m hb)
    rw [map_cons]
    have hin (hm : m.isHeading = false) : s.isIn .flow = false :=
      hout.resolve_right fun hfirst => Bool.false_ne_true (hm.symm.trans (hfirst m rfl))
    rcases hskip with rfl | ⟨_, _, hnext, hother, rfl⟩
    · rw [readTokens]
      cases hm : m.isHeading with
      | true =>
        obtain ⟨sec, hsec, hvalue⟩ := hms m mem_cons_self hm
        obtain ⟨hout', hflow⟩ := s.openSection_of_ne_flow hsec
        rw [readToken_heading s hm, hvalue]
        obtain ⟨s', hrun, hs'⟩ := ih (s := s.openSection sec.title) (by rw [hflow]; exact h)
          (.inl hout') hrest (.inl rfl)
        exact ⟨s', hrun, hs'.trans hflow⟩
      | false =>
        obtain ⟨s₁, taken, hread, htaken, hcurrent, hlevels, hflow⟩ := goesOn_readToken h hm ms
        rw [hread]
        obtain ⟨s', hrun, hs'⟩ := ih hlevels
          (.inl (by rw [TreeState.isIn, hcurrent]; exact hin hm)) hrest htaken
        exact ⟨s', hrun, hs'.trans (hflow (hin hm))⟩
    · obtain ⟨rfl, _⟩ := List.cons.inj hnext
      rw [readTokens]
      exact ih h (.inl (hin hother)) hrest (.inl rfl)

namespace ClauseState

theorem step_heading (s : ClauseState) (h : m.isHeading) :
    s.step m.toValue = .ok ({ s with inFlow := lower (strip m.value) == "flow",
                                     opened := .none }.keep m.fields) := by
  have hsection : m.read.type.isText "SECTION" := h
  rw [step, m.of_toValue]
  dsimp only [bind, Except.bind]
  rw [if_pos hsection]
  rfl

theorem foldlM_after (s : ClauseState) {ms : List Mark} (hms : AvoidsFlow ms)
    (hout : s.inFlow = false ∨ ∀ m, ms.head? = some m → m.isHeading) :
    ∃ s', (ms.map Mark.toValue).foldlM step s = .ok s' ∧
      s'.done = (ms.map Mark.fields).reverse ++ s.done := by
  induction ms generalizing s with
  | nil => exact ⟨s, rfl, rfl⟩
  | cons m ms ih =>
    have hstep : ∃ s₁, s.step m.toValue = .ok s₁ ∧ s₁.inFlow = false ∧
        s₁.done = m.fields :: s.done := by
      cases hm : m.isHeading with
      | true =>
        obtain ⟨sec, hsec, hvalue⟩ := hms m mem_cons_self hm
        refine ⟨_, s.step_heading hm, ?_, rfl⟩
        rw [hvalue]
        exact (title_of_ne_flow hsec).2
      | false =>
        have hsection : m.read.type.isText "SECTION" = false := hm
        have hin := hout.resolve_right fun hfirst => Bool.false_ne_true (hm.symm.trans (hfirst m rfl))
        refine ⟨s.keep m.fields, ?_, hin, rfl⟩
        rw [step, m.of_toValue]
        dsimp only [bind, Except.bind]
        rw [hsection, hin]
        rfl
    obtain ⟨s₁, hs₁, hout₁, hdone₁⟩ := hstep
    obtain ⟨s', hrun, hdone⟩ := ih s₁ (fun b hb => hms b (mem_cons_of_mem m hb)) (.inl hout₁)
    refine ⟨s', ?_, ?_⟩
    · rw [map_cons, foldlM_cons, hs₁]
      exact hrun
    · rw [hdone, hdone₁, map_cons, reverse_cons, append_assoc, singleton_append]

end ClauseState

end Loom.Outline
