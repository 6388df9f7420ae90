import Loom.Proofs.Coverage
import Loom.Proofs.Mark
import Loom.Proofs.Pairing
import Loom.Proofs.Tagged

/-!
# The Lines That Are the Flow

An outline may have several flows, and the last one counts: its lines are those
under the last heading that opens a flow, up to the next heading of any section.
What else a text holds never reaches the flow of its module. Here this is said of
all texts, whatever the lines of the flow are: the flow is a function of their
tokens.

Nesting clauses looks at the last token only, and at the block that is open, so
the tokens before the heading could be any. Reading the flow looks at the steps so
far and at the next token, and a heading is never taken for an expression.
-/

namespace Loom.Outline

open Loom.Text Loom.Text.Pattern Loom.Flow List ClauseState Token Nat TreeState

variable {ls : List String} {s s' : ClauseState} {ms after : List Mark} {current : Option Section}
  {line text : String} {ts : List Token} {f : FlowStack}

/-! ### Lines -/

theorem isLineEnd_of_mem_linesFrom {line cs : List Char} {started : Bool}
    (h : ∀ c ∈ line, isLineEnd c = false) :
    ∀ l ∈ linesFrom line started cs, ∀ c ∈ l, isLineEnd c = false := by
  fun_induction linesFrom line started cs with
  | case1 line =>
    intro l hl c hc
    rw [mem_singleton.mp hl] at hc
    exact h c (mem_reverse.mp hc)
  | case2 => exact forall_mem_nil _
  | case3 line started cs ih | case4 line started c cs _ hend ih =>
    intro l hl
    rcases mem_cons.mp hl with rfl | hl
    · exact fun c hc => h c (mem_reverse.mp hc)
    · exact ih (forall_mem_nil _) l hl
  | case5 line started c cs _ hend ih =>
    refine ih fun d hd => ?_
    rcases mem_cons.mp hd with rfl | hd
    · exact Bool.not_eq_true _ ▸ hend
    · exact h d hd

theorem isLineEnd_of_mem_lines (h : line ∈ lines text) :
    ∀ c ∈ line.toList, isLineEnd c = false := by
  obtain ⟨l, hl, rfl⟩ := mem_map.mp h
  rw [String.toList_ofList]
  exact isLineEnd_of_mem_linesFrom (forall_mem_nil _) l hl

theorem onLine_of_mem_lines (h : line ∈ lines text) : ∀ c ∈ line.toList, onLine c := by
  intro c hc
  rw [onLine, bne_iff_ne]
  rintro rfl
  exact absurd (isLineEnd_of_mem_lines h _ hc) (by decide)

def isBlankLine (line : String) : Bool := line.toList.all isBlank

variable {c : Char}

theorem absurd_of_isBlankLine (h : isBlankLine line) {w rest cs : List Char}
    (hline : line.toList = w ++ rest) (hrest : rest = c :: cs) (hc : isBlank c = false) :
    False := by
  have hblank := all_eq_true.mp h c (by rw [hline, hrest]; simp)
  rw [hc] at hblank
  cases hblank

theorem heading_of_isBlankLine (h : isBlankLine line) : heading.match? line = none := by
  refine run_eq_none ?_ _
  rintro next groups ⟨_, _, ⟨_, _, ⟨_, _, ⟨_, _, ⟨_, _, ⟨_, _, ⟨_, _, ⟨_, _, ⟨_, rfl, rfl⟩,
    w, _, hw, _⟩, ⟨_, _, ⟨c, hc, hrest, _⟩, _⟩⟩, _⟩, _⟩, _⟩, _⟩, _⟩, _⟩
  exact absurd_of_isBlankLine h hw hrest (of_isAlphanum hc).1

theorem bullet_of_isBlankLine (h : isBlankLine line) : bullet.match? line = none := by
  cases hm : bullet.match? line with
  | none => rfl
  | some m =>
    obtain ⟨indent, tag, rest, hline, _⟩ := exists_tag_of_match? hm
    rw [← append_assoc] at hline
    exact (absurd_of_isBlankLine h hline rfl (by decide)).elim

theorem strip_of_isBlankLine (h : isBlankLine line) : strip line = "" := by
  have hdrop : line.toList.dropWhile isBlank = [] := by
    rw [← append_nil line.toList, dropWhile_append_of_pos (all_eq_true.mp h)]
    rfl
  rw [strip, stripWhere, stripChars, hdrop]
  rfl

theorem lineTokens_blank (current : Option Section) (h : isBlankLine line) :
    lineTokens current line = (current, []) := by
  rw [lineTokens, sectionOf?, heading_of_isBlankLine h, bullet_of_isBlankLine h]
  change (current, plainTokens current line) = _
  unfold plainTokens
  rw [strip_of_isBlankLine h]
  rfl

def sectionAfter (current : Option Section) (ls : List String) : Option Section :=
  ls.foldl (fun current line => (lineTokens current line).1) current

theorem tokensOfLines_append (current : Option Section) (ls more : List String) :
    tokensOfLines current (ls ++ more)
      = tokensOfLines current ls ++ tokensOfLines (sectionAfter current ls) more := by
  induction ls generalizing current with
  | nil => rfl
  | cons line ls ih =>
    rw [cons_append, tokensOfLines, tokensOfLines]
    dsimp only
    rw [ih, append_assoc]
    rfl

/-! ### Other sections -/

def HasNoHeading (ts : List Token) : Prop := ∀ t ∈ ts, t.mark.isHeading = false

theorem Gives.hasNoHeading (h : Gives current ts) : HasNoHeading ts := by
  intro t ht
  have hkind := h.kind_ne t ht
  rcases t with ⟨kind, value, nesting⟩
  cases kind with
  | «section» => exact absurd rfl hkind
  | _ => rfl

theorem AvoidsFlow.append {ms more : List Mark} (h : AvoidsFlow ms) (h' : AvoidsFlow more) :
    AvoidsFlow (ms ++ more) :=
  fun m hm => (mem_append.mp hm).elim (h m) (h' m)

theorem HasNoHeading.avoidsFlow {ts : List Token} (h : HasNoHeading ts) :
    AvoidsFlow (ts.map Token.mark) := by
  intro m hm hheading
  obtain ⟨t, ht, rfl⟩ := mem_map.mp hm
  rw [h t ht] at hheading
  cases hheading

theorem avoidsFlow_tokensOfLines {ls : List String}
    (h : ∀ line ∈ ls, ∀ value, sectionOf? line ≠ some (.flow, value)) (current : Option Section) :
    AvoidsFlow ((tokensOfLines current ls).map Token.mark) := by
  induction ls generalizing current with
  | nil => exact forall_mem_nil _
  | cons line ls ih =>
    rw [tokensOfLines, map_append]
    refine AvoidsFlow.append ?_ (ih (fun l hl => h l (mem_cons_of_mem line hl)) _)
    cases hsec : sectionOf? line with
    | none => exact (gives_lineTokens hsec).2.hasNoHeading.avoidsFlow
    | some r =>
      obtain ⟨values, hvalues, hgives⟩ := exists_sectionTokens r.1 r.2
      rw [lineTokens, hsec]
      dsimp only
      rw [hvalues, map_cons]
      intro m hm hheading
      rcases mem_cons.mp hm with rfl | hm
      · refine ⟨r.1, fun hflow => h line mem_cons_self r.2 ?_, rfl⟩
        rw [hsec, ← hflow]
      · exact hgives.hasNoHeading.avoidsFlow m hm hheading

/-! ### Parts of a text -/

/-- The last line that opens a part, and the lines after it up to one that closes
    it. -/
def lastUnder (opens closes : String → Bool) : List String → Option (String × List String)
  | [] => none
  | line :: rest =>
    match lastUnder opens closes rest with
    | some found => some found
    | none => if opens line then some (line, rest.takeWhile (!closes ·)) else none

/-- What is found stands in the text, and nothing that opens a part comes after. -/
structure StandsIn (opens closes : String → Bool) (ls : List String) (heading : String)
    (body : List String) (before after : List String) : Prop where
  lines_eq : ls = before ++ heading :: (body ++ after)
  heads : opens heading
  inside : ∀ line ∈ body, closes line = false
  ends : ∀ line, after.head? = some line → closes line
  last : ∀ line ∈ body ++ after, opens line = false

variable {opens closes : String → Bool}

theorem opens_of_lastUnder_none (h : lastUnder opens closes ls = none) :
    ∀ line ∈ ls, opens line = false := by
  induction ls with
  | nil => exact forall_mem_nil _
  | cons line ls ih =>
    rw [lastUnder] at h
    split at h
    · cases h
    · rename_i hrest
      refine forall_mem_cons.mpr ⟨?_, ih hrest⟩
      rw [← Bool.not_eq_true]
      intro hopens
      rw [if_pos hopens] at h
      cases h

theorem exists_standsIn {heading : String} {body : List String}
    (h : lastUnder opens closes ls = some (heading, body)) :
    ∃ before after, StandsIn opens closes ls heading body before after := by
  induction ls with
  | nil => cases h
  | cons line ls ih =>
    rw [lastUnder] at h
    split at h
    · rename_i found hrest
      obtain ⟨before, after, hstands⟩ := ih (hrest.trans h)
      exact ⟨line :: before, after, { hstands with
        lines_eq := congrArg (line :: ·) hstands.lines_eq }⟩
    · rename_i hrest
      split at h
      · rename_i hopens
        obtain ⟨rfl, rfl⟩ := Prod.mk.inj (Option.some_inj.mp h)
        refine ⟨[], ls.dropWhile (!closes ·), ?_, hopens, ?_, ?_, ?_⟩
        · rw [takeWhile_append_dropWhile]
          rfl
        · intro l hl
          simpa using mem_takeWhile_imp hl
        · intro l hl
          have hhead := head?_dropWhile_not (!closes ·) ls
          rw [hl] at hhead
          simpa using hhead
        · rw [takeWhile_append_dropWhile]
          exact opens_of_lastUnder_none hrest
      · cases h

def opensFlow (line : String) : Bool := match sectionOf? line with
  | some (sec, _) => sec == .flow
  | none => false

def opensSection (line : String) : Bool := (sectionOf? line).isSome

/-- The heading of the flow and the lines under it. -/
def readFlow (text : String) : Option (String × List String) :=
  lastUnder opensFlow opensSection (lines text)

/-- The tokens of a text's flow, under a heading without a value. -/
def ReadsAs (text : String) (ts : List Token) : Prop :=
  ∃ heading body value, readFlow text = some (heading, body) ∧
    sectionOf? heading = some (.flow, value) ∧ strip value = "" ∧
    tokensOfLines (some .flow) body = ts

/-! ### Clauses -/

namespace ClauseState

/-- A state that had read more before. -/
def atop (s : ClauseState) (before : List (Fields Value)) : ClauseState :=
  { s with done := s.done ++ before }

variable {s : ClauseState} {m : Mark} {before : List (Fields Value)}

theorem lastVerb?_atop (hm : m.isHeading) :
    (s.atop (m.fields :: before)).lastVerb? = s.lastVerb? := by
  have htype : m.type = "SECTION" := LawfulBEq.eq_of_beq hm
  cases hdone : s.done with
  | nil =>
    rw [@lastVerb?_of_done _ m before (by rw [atop, hdone]; rfl), htype, lastVerb?, hdone]
    rfl
  | cons last rest =>
    rw [lastVerb?, lastVerb?, atop, hdone]
    rfl

theorem followsBodyVerb_atop (hm : m.isHeading) :
    (s.atop (m.fields :: before)).followsBodyVerb = s.followsBodyVerb := by
  rw [followsBodyVerb, followsBodyVerb, lastVerb?_atop hm]

theorem underChoose_atop (hm : m.isHeading) (t : ReadToken) (level : Int) :
    (s.atop (m.fields :: before)).underChoose t level
      = (s.underChoose t level).map (atop · (m.fields :: before)) := by
  rw [underChoose, underChoose, followsBodyVerb_atop hm]
  split
  · rfl
  · cases isAmong t.type ["VERB", "EXPR"] with
    | error e => rfl
    | ok among =>
      dsimp only [bind, Except.bind]
      split
      · rfl
      · split
        · rfl
        · cases s.followsBodyVerb with
          | error e => rfl
          | ok follows =>
            dsimp only
            split <;> rfl

theorem underLoop_atop (hm : m.isHeading) (t : ReadToken) (level : Int) :
    (s.atop (m.fields :: before)).underLoop t level
      = (s.underLoop t level).atop (m.fields :: before) := by
  rw [underLoop, underLoop, lastVerb?_atop hm]
  split
  · rfl
  · split <;> rfl

theorem joinHeader_atop (h : s.done ≠ []) (t : ReadToken) (level : Int) :
    (s.atop before).joinHeader t level = (s.joinHeader t level).atop before := by
  obtain ⟨last, rest, hdone⟩ := exists_cons_of_ne_nil h
  rw [joinHeader, joinHeader, atop, hdone]
  rfl

theorem step_atop (hs : s.IsSafe) (hm : m.isHeading) (v : Value) :
    (s.atop (m.fields :: before)).step v = (s.step v).map (atop · (m.fields :: before)) := by
  have hinFlow : (s.atop (m.fields :: before)).inFlow = s.inFlow := rfl
  have hopened : (s.atop (m.fields :: before)).opened = s.opened := rfl
  have hexpects : (s.atop (m.fields :: before)).expectsHeader = s.expectsHeader := rfl
  rw [step, step]
  cases ReadToken.of v with
  | error e => rfl
  | ok t =>
    dsimp only [bind, Except.bind]
    rw [hinFlow, hopened, hexpects]
    split
    · rfl
    · split
      · rfl
      · split
        · rfl
        · split
          · rfl
          · cases s.opened with
            | none => rfl
            | choose level => exact underChoose_atop hm t level
            | loop level =>
              dsimp only
              split
              · rename_i hheader
                simp only [Bool.and_eq_true] at hheader
                rw [joinHeader_atop (hs hheader.1.1)]
                rfl
              · rw [underLoop_atop hm]
                rfl

theorem exists_foldlM_atop (hs : s.IsSafe) (hms : s.done = ms.map Mark.fields)
    (hplain : ∀ m ∈ ms, m.isHeading = false) {next : List Mark}
    (hnext : ∀ m ∈ next, m.isHeading = false) :
    ∃ (s' : ClauseState) (ms' : List Mark), s'.done = ms'.map Mark.fields ∧
      (∀ m ∈ ms', m.isHeading = false) ∧ ∀ (heading : Mark) (before : List (Fields Value)),
      heading.isHeading → (next.map Mark.toValue).foldlM step
        (s.atop (heading.fields :: before)) = .ok (s'.atop (heading.fields :: before)) := by
  induction next generalizing s ms with
  | nil => exact ⟨s, ms, hms, hplain, fun _ _ _ => rfl⟩
  | cons m next ih =>
    obtain ⟨hm, hrest⟩ := forall_mem_cons.mp hnext
    obtain ⟨s₁, hstep, hadds⟩ := exists_step hs hms m
    obtain ⟨ms₁, hms₁, hplain₁⟩ := hadds.exists_marks hms
    obtain ⟨s', ms', hms', hplain', hrun⟩ := ih hadds.isSafe hms₁ (hplain₁ hm hplain) hrest
    refine ⟨s', ms', hms', hplain', fun heading before hheading => ?_⟩
    rw [map_cons, foldlM_cons, step_atop hs hheading, hstep]
    exact hrun heading before hheading

end ClauseState

/-! ### Steps -/

theorem exprAfter?_append (level : Value) (ms : List Mark)
    (hafter : ∀ m, after.head? = some m → m.isHeading) :
    exprAfter? level ((ms ++ after).map Mark.toValue) = exprAfter? level (ms.map Mark.toValue) := by
  cases ms with
  | cons m ms => rfl
  | nil =>
    cases after with
    | nil => rfl
    | cons m after =>
      have htype : m.type = "SECTION" := LawfulBEq.eq_of_beq (hafter m rfl)
      have hrequire : m.toValue.require "type" = .ok (.str "SECTION") := by rw [← htype]; rfl
      rw [nil_append, map_cons, exprAfter?, hrequire]
      rfl

theorem FlowStack.readMark_append (f : FlowStack) (m : Mark) (ms : List Mark)
    (hafter : ∀ m, after.head? = some m → m.isHeading) :
    f.readMark m ((ms ++ after).map Mark.toValue) = f.readMark m (ms.map Mark.toValue) := by
  rw [readMark, readMark, exprAfter?_append _ ms hafter]

theorem exists_readTokens_marks (hf : f.HasLevels)
    (hms : ∀ m ∈ ms, m.isHeading = false) {skip : Nat} (hskip : TakesAlong ms skip) :
    ∃ f' : FlowStack, f'.HasLevels ∧ ∀ (s : TreeState) (after : List Mark),
      s.current = some Section.flow.title → s.flow = f →
      (∀ m, after.head? = some m → m.isHeading) →
      readTokens s skip ((ms ++ after).map Mark.toValue)
        = readTokens { s with flow := f' } 0 (after.map Mark.toValue) := by
  induction ms generalizing f skip with
  | nil =>
    obtain rfl : skip = 0 := hskip.resolve_right nofun
    refine ⟨f, hf, fun s after _ hflow _ => ?_⟩
    rw [← hflow]
    rfl
  | cons m ms ih =>
    obtain ⟨hm, hrest⟩ := forall_mem_cons.mp hms
    rcases hskip with rfl | ⟨_, _, _, _, rfl⟩
    · obtain ⟨f₁, taken, hread, htaken, hf₁⟩ := hf.exists_readMark m ms
      obtain ⟨f', hf', hrun⟩ := ih hf₁ hrest htaken
      refine ⟨f', hf', fun s after hin hflow hafter => ?_⟩
      rw [cons_append, map_cons, readTokens, readToken_mark hin hm,
        FlowStack.readMark_append _ _ _ hafter, hflow, hread]
      exact hrun { s with flow := f₁ } after hin rfl hafter
    · exact ih hf hrest (.inl rfl)

/-! ### The flow -/

theorem hasNoHeading_tokensOfLines (h : ∀ line ∈ ls, sectionOf? line = none) :
    sectionAfter current ls = current ∧ HasNoHeading (tokensOfLines current ls) := by
  induction ls with
  | nil => exact ⟨rfl, forall_mem_nil _⟩
  | cons line ls ih =>
    obtain ⟨hcurrent, htokens⟩ := @gives_lineTokens current line (h line mem_cons_self)
    obtain ⟨hafter, hrest⟩ := ih fun l hl => h l (mem_cons_of_mem line hl)
    rw [sectionAfter, foldl_cons, tokensOfLines]
    dsimp only
    rw [hcurrent]
    exact ⟨hafter, fun t ht => (mem_append.mp ht).elim (htokens.hasNoHeading t) (hrest t)⟩

theorem sectionOf?_of_opensSection (h : opensSection line = false) : sectionOf? line = none := by
  rw [opensSection] at h
  cases hsec : sectionOf? line with
  | none => rfl
  | some r => rw [hsec] at h; exact absurd h.symm Bool.false_ne_true

theorem sectionOf?_of_opensFlow (h : opensFlow line = false) (value : String) :
    sectionOf? line ≠ some (.flow, value) := by
  intro hsec
  rw [opensFlow, hsec] at h
  exact absurd h.symm Bool.false_ne_true

theorem isHeading_of_head? (h : ∀ line, ls.head? = some line → opensSection line) {m : Mark}
    (hm : ((tokensOfLines current ls).map Token.mark).head? = some m) : m.isHeading := by
  cases ls with
  | nil => cases hm
  | cons line ls =>
    obtain ⟨⟨sec, value⟩, hsec⟩ := Option.isSome_iff_exists.mp (h line rfl)
    rw [tokensOfLines, lineTokens, hsec] at hm
    rw [← Option.some_inj.mp hm]
    rfl

def Layout.opening : Mark := ⟨"SECTION", Section.flow.title, 0⟩

/-- The tokens of a text's flow are some marks: they come after the heading of the flow, and
    before another section. -/
def HasFlow (text : String) (ms : List Mark) : Prop :=
  ∃ before after : List Mark, AvoidsFlow after ∧
    (∀ m, after.head? = some m → m.isHeading = true) ∧ (tokenize text).map Token.toValue
      = (before ++ Layout.opening :: (ms ++ after)).map Mark.toValue

theorem hasFlow_of_lines {before body after : List String} {heading value : String}
    (hlines : lines text = before ++ heading :: (body ++ after))
    (hopens : sectionOf? heading = some (.flow, value)) (hbare : strip value = "")
    (hsection : sectionAfter (some .flow) body = some .flow)
    (hends : ∀ line, after.head? = some line → opensSection line)
    (hlast : ∀ line ∈ after, ∀ value, sectionOf? line ≠ some (.flow, value)) :
    HasFlow text ((tokensOfLines (some .flow) body).map Token.mark) := by
  have hheading : lineTokens (sectionAfter none before) heading
      = (some .flow, [⟨.section, Section.flow.title, 0⟩]) := by
    rw [lineTokens, hopens]
    dsimp only
    rw [sectionTokens, hbare]
    rfl
  refine ⟨(tokensOfLines none before).map mark,
    (tokensOfLines (some .flow) after).map mark, avoidsFlow_tokensOfLines hlast _,
    fun m => isHeading_of_head? hends, ?_⟩
  rw [tokenize, hlines, tokensOfLines_append, tokensOfLines, hheading]
  dsimp only
  rw [tokensOfLines_append, hsection]
  simp only [map_append, map_cons, map_map]
  rfl

theorem ReadsAs.hasFlow (h : ReadsAs text ts) : HasNoHeading ts ∧ HasFlow text (ts.map Token.mark) := by
  obtain ⟨heading, body, value, hflow, hopens, hbare, rfl⟩ := h
  obtain ⟨before, after, hstands⟩ := exists_standsIn hflow
  obtain ⟨hsection, hplain⟩ := @hasNoHeading_tokensOfLines body (some .flow) fun line hline =>
    sectionOf?_of_opensSection (hstands.inside line hline)
  exact ⟨hplain, hasFlow_of_lines hstands.lines_eq hopens hbare hsection hstands.ends
    fun line hline => sectionOf?_of_opensFlow (hstands.last line (mem_append_right body hline))⟩

def TreeState.tree (s : TreeState) (steps : List Value) : Value :=
  .obj [("Module", s.name), ("Purpose", s.purpose), ("Inputs", .list s.inputs),
    ("Outputs", .list s.outputs), ("Flow", stepsBody steps), ("Tests", .list s.tests),
    ("Version", s.version)]

theorem TreeState.flow_close (s : TreeState) : s.close.flow = s.flow := by
  rw [close]
  split <;> rfl

theorem HasFlow.exists_treeOf (h : HasFlow text ms) (nested : List Mark) (f : FlowStack)
    (hnest : ∀ done, ∃ s : ClauseState, (ms.map Mark.toValue).foldlM ClauseState.step
      ⟨true, .none, false, Layout.opening.fields :: done⟩ = .ok s ∧
        s.done = (nested.map Mark.fields).reverse ++ Layout.opening.fields :: done)
    (hf : f.HasLevels) (hread : ∀ (s : TreeState) (after : List Mark),
      s.current = some Section.flow.title → s.flow = {} →
      (∀ m, after.head? = some m → m.isHeading) →
      readTokens s 0 ((nested ++ after).map Mark.toValue)
        = readTokens { s with flow := f } 0 (after.map Mark.toValue)) :
    ∃ s : TreeState, treeOf text = (groupConditionals true ((Value.list f.finish).depth + 1)
      (.list f.finish)).map s.tree := by
  obtain ⟨before, after, havoids, hafter, htokens⟩ := h
  obtain ⟨s₀, front, hbefore, hfront⟩ := @exists_foldlM {} [] nofun rfl before
  have hopening := s₀.step_heading (m := Layout.opening) rfl
  have hflow : (lower (strip Layout.opening.value) == "flow") := by decide +kernel
  rw [hflow] at hopening
  obtain ⟨s₁, hrun, hdone₁⟩ := hnest s₀.done
  obtain ⟨s₂, hlast, hdone₂⟩ := s₁.foldlM_after havoids (.inr hafter)
  -- The three runs one after the other: up to the heading, the flow, what is after.
  have hall : ((before ++ Layout.opening :: (ms ++ after)).map Mark.toValue).foldlM
      step {} = .ok s₂ := by
    rw [map_append, foldlM_append, hbefore]
    change foldlM step s₀ _ = _
    rw [map_cons, foldlM_cons, hopening]
    change foldlM step _ _ = _
    rw [map_append, foldlM_append]
    change (foldlM step
      ⟨true, .none, false, Layout.opening.fields :: s₀.done⟩ _ >>= _) = _
    rw [hrun]
    exact hlast
  have hnested : nestClauses ((tokenize text).map toValue) = .ok
      ((front.reverse ++ Layout.opening :: (nested ++ after)).map Mark.toValue) := by
    rw [htokens, nestClauses, hall]
    change Except.ok (s₂.done.reverse.map Value.obj) = _
    rw [hdone₂, hdone₁, hfront]
    simp only [reverse_append, reverse_reverse, reverse_cons, map_append,
      map_cons, map_nil, append_assoc, map_reverse, map_map]
    rfl
  obtain ⟨s₃, hheading⟩ := @readTokens_heading Layout.opening {} (forall_mem_nil _) front.reverse
    rfl (nested ++ after) 0 (.inl rfl)
  obtain ⟨hcurrent, hnone⟩ := s₃.openSection_title .flow
  obtain ⟨s₄, hrest, hflow₄⟩ := @readTokens_after
    { s₃.openSection Section.flow.title with flow := f } hf after (.inr hafter) havoids 0 (.inl rfl)
  refine ⟨s₄.close, ?_⟩
  rw [treeOf, parseTree, hnested]
  dsimp only [bind, Except.bind]
  rw [hheading.trans ((hread _ after hcurrent hnone hafter).trans hrest)]
  dsimp only
  rw [s₄.flow_close, hflow₄]
  cases groupConditionals true _ (.list f.finish) <;> rfl

theorem exists_treeOf_of_tokens (hts : HasNoHeading ts) :
    ∃ steps : Except Error (List Value), ∀ text, ReadsAs text ts →
      ∃ s : TreeState, treeOf text = steps.map s.tree := by
  have hmarks : ∀ m ∈ ts.map mark, m.isHeading = false := by
    intro m hm
    obtain ⟨t, ht, rfl⟩ := mem_map.mp hm
    exact hts t ht
  obtain ⟨s₁, nested, hnested, hplain, hrun⟩ := @exists_foldlM_atop [] { inFlow := true } nofun rfl
    (forall_mem_nil _) _ hmarks
  obtain ⟨f, hf, hread⟩ := @exists_readTokens_marks nested.reverse {} (forall_mem_nil _)
    (fun m hm => hplain m (mem_reverse.mp hm)) 0 (.inl rfl)
  refine ⟨_, fun text h => h.hasFlow.2.exists_treeOf nested.reverse f (fun done =>
    ⟨_, hrun Layout.opening done rfl, ?_⟩) hf fun s after => hread s after⟩
  rw [atop, hnested, map_reverse, reverse_reverse]

theorem flow_eq_of_readsAs {t₁ t₂ : String} (h₁ : ReadsAs t₁ ts) (h₂ : ReadsAs t₂ ts)
    {m₁ m₂ : Value} (hm₁ : Module.ofText t₁ = .ok m₁) (hm₂ : Module.ofText t₂ = .ok m₂) :
    m₁.field "flow" = m₂.field "flow" := by
  obtain ⟨steps, htrees⟩ := exists_treeOf_of_tokens h₁.hasFlow.1
  obtain ⟨tree₁, htree₁, hm₁⟩ := of_bind_ok hm₁
  obtain ⟨tree₂, htree₂, hm₂⟩ := of_bind_ok hm₂
  obtain ⟨s₁, hs₁⟩ := htrees t₁ h₁
  obtain ⟨s₂, hs₂⟩ := htrees t₂ h₂
  rw [htree₁] at hs₁
  rw [htree₂] at hs₂
  cases steps with
  | error e => cases hs₁
  | ok steps =>
    obtain ⟨flow, canon, hflow, hcanon, hfield⟩ := @exists_of_ofTree steps _ _
      (by rw [Except.ok.inj hs₁]; rfl) hm₁
    obtain ⟨flow', canon', hflow', hcanon', hfield'⟩ := @exists_of_ofTree steps _ _
      (by rw [Except.ok.inj hs₂]; rfl) hm₂
    obtain rfl := Except.ok.inj (hflow.symm.trans hflow')
    obtain rfl := Except.ok.inj (hcanon.symm.trans hcanon')
    exact hfield.trans hfield'.symm

end Loom.Outline
