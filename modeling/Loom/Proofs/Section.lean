import Loom.Proofs.Excerpt
import Loom.Proofs.Sentence

/-!
# The Flow Section

An outline whose flow is a list of bullets, followed from its lines to the steps
of its tree. Whatever the other sections hold, the flow ends up as two steps for
each repetition, the verb and the header on its own, and one step for every other
bullet.

The levels of these steps are not those of the bullets. Once a repetition was
read, every line after it is raised above it, until the next one comes. So a line
is raised by what was read before it, and that is all the state there is.
-/

namespace Loom.Outline

open Loom.Text Loom.Text.Pattern Loom.Flow List Bullet TreeState Mark

variable {text line verb : String} {b : Bullet} {bs : List Bullet} {s : ClauseState}
  {last : Option Nat}

/-! ### Bullets -/

structure Bullet.IsReadable (b : Bullet) : Prop where
  plain : IsPlain b.sentence
  onLine : ∀ c ∈ b.sentence.chars, onLine c

def Bullet.isRepeat (b : Bullet) : Bool := Flow.isRepeat b.sentence

def Bullet.tokens (b : Bullet) : List Token :=
  [⟨.verb, b.sentence.verb, b.level⟩, ⟨.expr, b.sentence.text, b.level⟩]

theorem Bullet.verb_mem_of_leaf (h : b.isRepeat = false) :
    b.sentence.verb ∈ ["Make", "Show", "Return"] := by
  cases hs : b.sentence with
  | repeats _ _ => rw [isRepeat, hs] at h; exact nomatch h
  | _ => simp [Sentence.verb]

theorem Bullet.exists_of_isRepeat (h : b.isRepeat) :
    ∃ name range, b.sentence = .repeats name range := by
  cases hs : b.sentence with
  | repeats name range => exact ⟨name, range, rfl⟩
  | _ => rw [isRepeat, hs] at h; exact nomatch h

theorem tokensOfLines_bullets {body : List String}
    (hbody : body.filter (!isBlankLine ·) = bs.map Bullet.line) (h : ∀ b ∈ bs, b.IsReadable) :
    tokensOfLines (some .flow) body = bs.flatMap Bullet.tokens ∧
      sectionAfter (some .flow) body = some .flow := by
  induction body generalizing bs with
  | nil =>
    rw [map_eq_nil_iff.mp hbody.symm]
    exact ⟨rfl, rfl⟩
  | cons line body ih =>
    cases hblank : isBlankLine line with
    | true =>
      rw [filter_cons_of_neg (by rw [hblank]; decide)] at hbody
      obtain ⟨htokens, hafter⟩ := ih hbody h
      rw [tokensOfLines, sectionAfter, foldl_cons, lineTokens_blank _ hblank]
      exact ⟨htokens, hafter⟩
    | false =>
      rw [filter_cons_of_pos (by rw [hblank]; rfl)] at hbody
      obtain ⟨b, rest, rfl, hline, hrest⟩ := map_eq_cons_iff.mp hbody.symm
      have hb := h b mem_cons_self
      obtain ⟨htokens, hafter⟩ := ih hrest.symm fun c hc => h c (mem_cons_of_mem b hc)
      rw [tokensOfLines, sectionAfter, foldl_cons, ← hline,
        lineTokens_bullet hb.plain.isPhrase_text hb.onLine]
      exact ⟨congrArg (b.tokens ++ ·) htokens, hafter⟩

/-- The level of a bullet when the last repetition before it is at a given one. -/
def Bullet.raised (last : Option Nat) (b : Bullet) : Nat := match b.isRepeat, last with
  | false, some level => max b.level (level + 1)
  | _, _ => b.level

theorem Bullet.raised_of_isRepeat (last : Option Nat) (h : b.isRepeat) :
    b.raised last = b.level := by
  unfold raised
  rw [h]

def Bullet.lastLoop (last : Option Nat) (b : Bullet) : Option Nat :=
  if b.isRepeat then some b.level else last

/-- What bullets give one after the other, each in view of the last repetition
    before it. -/
def inTurn {β : Type} (f : Option Nat → Bullet → List β) (last : Option Nat) :
    List Bullet → List β
  | [] => []
  | b :: bs => f last b ++ inTurn f (b.lastLoop last) bs

/-- The verb of a bullet is raised and so is its text; the header of a repetition
    is raised above its verb. -/
def Bullet.marks (last : Option Nat) (b : Bullet) : List Mark :=
  [⟨"VERB", b.sentence.verb, b.raised last⟩,
    ⟨"EXPR", b.sentence.text, if b.isRepeat then b.level + 1 else b.raised last⟩]

def openedBy : Option Nat → OpenBlock
  | none => .none
  | some level => .loop level

def Mark.raise (last : Option Nat) (m : Mark) : Mark := match last with
  | none => m
  | some level => m.deepen (level + 1)

theorem Bullet.raise_mark (type value : String) (last : Option Nat) (h : b.isRepeat = false) :
    (⟨type, value, b.level⟩ : Mark).raise last = ⟨type, value, b.raised last⟩ := by
  unfold raised
  rw [h]
  cases last with
  | none => rfl
  | some level =>
    rw [raise, deepen]
    dsimp only
    split
    · rw [Nat.max_eq_right (by omega)]
      rfl
    · rw [Nat.max_eq_left (by omega)]

variable {m : Mark}

namespace ClauseState

theorem step_inside (hin : s.inFlow) (hopen : s.opened = openedBy last)
    (hm : m.isHeading = false)
    (hblock : (m.read.isVerb && blockVerbs.contains m.read.plain) = false)
    (hheader : (s.expectsHeader && m.read.isExpr && loopHeader.fits m.value) = false)
    (hverb : (m.read.isVerb || (m.read.isExpr && s.lastVerb?.isSome))) :
    s.step m.toValue = .ok (s.keep (m.raise last).fields) := by
  have hsection : m.read.type.isText "SECTION" = false := hm
  have hvalue : m.read.value = m.value := rfl
  have hother : ∀ verb ∈ blockVerbs, (m.read.isVerb && m.read.plain == verb) = false := by
    intro verb hmem
    cases hisVerb : m.read.isVerb with
    | false => rfl
    | true =>
      rw [hisVerb, Bool.true_and] at hblock
      rw [Bool.true_and, ← Bool.not_eq_true, beq_iff_eq]
      rintro rfl
      rw [contains_iff_mem.mpr hmem] at hblock
      cases hblock
  -- No branch of a heading, a choice or a repetition is taken: what is open decides.
  rw [step, m.of_toValue]
  dsimp only [bind, Except.bind]
  rw [hsection, hin, hother "choose" (by decide), hother "repeat" (by decide), hopen]
  cases last with
  | none => rfl
  | some level =>
    dsimp only [openedBy]
    rw [hvalue, hheader, underLoop, hblock, Bool.false_and, hverb, deepen_read]
    rfl

theorem step_verb (hin : s.inFlow) (hopen : s.opened = openedBy last)
    (hverb : blockVerbs.contains (lower (strip verb)) = false) (level : Int) :
    s.step (⟨"VERB", verb, level⟩ : Mark).toValue
      = .ok (s.keep ((⟨"VERB", verb, level⟩ : Mark).raise last).fields) := by
  have hplain : (⟨"VERB", verb, level⟩ : Mark).read.plain = lower (strip verb) := rfl
  refine step_inside hin hopen rfl (by rw [hplain, hverb, Bool.and_false]) ?_ rfl
  change (s.expectsHeader && false && loopHeader.fits verb) = false
  rw [Bool.and_false, Bool.false_and]

theorem step_text (hin : s.inFlow) (hopen : s.opened = openedBy last) {verb : Mark}
    {before : List (Fields Value)} (hdone : s.done = verb.fields :: before)
    (hverb : verb.type = "VERB") {value : String}
    (hheader : (s.expectsHeader && loopHeader.fits value) = false) (level : Int) :
    s.step (⟨"EXPR", value, level⟩ : Mark).toValue
      = .ok (s.keep ((⟨"EXPR", value, level⟩ : Mark).raise last).fields) := by
  refine step_inside hin hopen rfl rfl ?_ ?_
  · change (s.expectsHeader && true && loopHeader.fits value) = false
    rw [Bool.and_true, hheader]
  · rw [lastVerb?_of_done hdone, hverb]
    rfl

def openRepeat (s : ClauseState) (level : Int) : ClauseState :=
  ⟨s.inFlow, .loop level, true, (⟨"VERB", "Repeat", level⟩ : Mark).fields :: s.done⟩

theorem step_repeat (hin : s.inFlow) (level : Int) :
    s.step (⟨"VERB", "Repeat", level⟩ : Mark).toValue = .ok (s.openRepeat level) := by
  have hplain : (⟨"VERB", "Repeat", level⟩ : Mark).read.plain = "repeat" := by
    change lower (strip "Repeat") = "repeat"
    decide +kernel
  rw [step, of_toValue]
  dsimp only [bind, Except.bind]
  rw [hin, hplain, openRepeat, hin]
  rfl

theorem foldlM_tokens {s₁ s₂ : ClauseState} (b : Bullet)
    (h₁ : s.step (⟨"VERB", b.sentence.verb, b.level⟩ : Mark).toValue = .ok s₁)
    (h₂ : s₁.step (⟨"EXPR", b.sentence.text, b.level⟩ : Mark).toValue = .ok s₂) :
    (b.tokens.map Token.toValue).foldlM step s = .ok s₂ := by
  change (s.step (⟨"VERB", b.sentence.verb, b.level⟩ : Mark).toValue >>= fun s₁ =>
    s₁.step (⟨"EXPR", b.sentence.text, b.level⟩ : Mark).toValue >>= pure) = _
  rw [h₁]
  change (s₁.step (⟨"EXPR", b.sentence.text, b.level⟩ : Mark).toValue >>= pure) = _
  rw [h₂]
  rfl

theorem exists_step_bullet (hin : s.inFlow) (hopen : s.opened = openedBy last)
    (hb : b.IsReadable) :
    ∃ s', (b.tokens.map Token.toValue).foldlM step s = .ok s' ∧ s'.inFlow ∧
      s'.opened = openedBy (b.lastLoop last) ∧
      s'.done = ((b.marks last).map Mark.fields).reverse ++ s.done := by
  rw [lastLoop, marks]
  cases hrepeat : b.isRepeat with
  | false =>
    have hverbs : ∀ v ∈ ["Make", "Show", "Return"],
        blockVerbs.contains (lower (strip v)) = false := by decide +kernel
    have hverb := step_verb hin hopen (hverbs _ (verb_mem_of_leaf hrepeat)) b.level
    rw [raise_mark _ _ last hrepeat] at hverb
    have htext := @step_text (s.keep (⟨"VERB", b.sentence.verb, b.raised last⟩ : Mark).fields) last
      hin hopen ⟨"VERB", b.sentence.verb, b.raised last⟩ s.done rfl rfl b.sentence.text rfl b.level
    rw [raise_mark _ _ last hrepeat] at htext
    exact ⟨_, foldlM_tokens b hverb htext, hin, hopen, rfl⟩
  | true =>
    -- The verb opens a block at its own level, which then raises its header by one.
    obtain ⟨name, range, hs⟩ := exists_of_isRepeat hrepeat
    have hplain := hb.plain
    rw [hs] at hplain
    have hverb : s.step (⟨"VERB", b.sentence.verb, b.level⟩ : Mark).toValue
        = .ok (s.openRepeat b.level) := by
      rw [hs]
      exact step_repeat hin b.level
    have htext := @step_text (s.openRepeat b.level) (some b.level) hin rfl
      ⟨"VERB", "Repeat", b.level⟩ s.done rfl rfl b.sentence.text
      (by rw [hs]; exact hplain.2.2.1) b.level
    have hraise : (⟨"EXPR", b.sentence.text, b.level⟩ : Mark).raise (some b.level)
        = ⟨"EXPR", b.sentence.text, b.level + 1⟩ := if_pos (by dsimp only; omega)
    rw [hraise] at htext
    refine ⟨_, foldlM_tokens b hverb htext, hin, rfl, ?_⟩
    rw [raised_of_isRepeat last hrepeat, hs]
    rfl

theorem foldlM_bullets (hin : s.inFlow) (hopen : s.opened = openedBy last)
    (h : ∀ b ∈ bs, b.IsReadable) :
    ∃ s', ((bs.flatMap Bullet.tokens).map Token.toValue).foldlM step s = .ok s' ∧
      s'.done = ((inTurn Bullet.marks last bs).map Mark.fields).reverse ++ s.done := by
  induction bs generalizing s last with
  | nil => exact ⟨s, rfl, rfl⟩
  | cons b bs ih =>
    obtain ⟨s₁, hstep, hin₁, hopen₁, hdone₁⟩ := exists_step_bullet hin hopen (h b mem_cons_self)
    obtain ⟨s', hrun, hdone⟩ := ih hin₁ hopen₁ fun c hc => h c (mem_cons_of_mem b hc)
    refine ⟨s', ?_, ?_⟩
    · rw [flatMap_cons, map_append, foldlM_append, hstep]
      exact hrun
    · rw [hdone, hdone₁, inTurn, map_append, reverse_append, append_assoc]

end ClauseState

/-! ### Steps -/

def plainStep (verb : String) (expr : Value) (level : Int) : Value :=
  .obj [("verb", .str verb), ("expr", expr), ("level", .int level), ("is_block", .bool false)]

/-- The steps of a bullet. A repetition is two, its verb and its header. -/
def Bullet.steps (last : Option Nat) (b : Bullet) : List Value := if b.isRepeat then
    [plainStep "Repeat" .null b.level, plainStep b.sentence.text (.str "") (b.level + 1)]
  else [plainStep b.sentence.verb (.str b.sentence.text) (b.raised last)]

def TreeState.withSteps (s : TreeState) (steps : List Value) : TreeState :=
  { s with flow := ⟨[], steps.reverse ++ s.flow.outer⟩ }

theorem FlowStack.add_outer {s : FlowStack} (hblocks : s.blocks = []) {step : Value}
    (hstep : (step.field "is_block").truthy = false) (level : Value) :
    s.add step level = .ok ⟨[], step :: s.outer⟩ := by
  rw [add, hblocks, leave]
  dsimp only [bind, Except.bind]
  rw [hstep]
  rfl

variable {s : TreeState}

theorem readToken_verb (hin : s.current = some Section.flow.title)
    (hblocks : s.flow.blocks = []) (hverb : splitJoined? verb = none) {level : Int}
    {rest : List Value} {expr : Option String} (hexpr : exprAfter? (.int level) rest = .ok expr)
    {value : Value} (hstep : TreeState.verbStep (lower (strip verb)) expr (.int level)
      = plainStep verb value level) : readToken s (⟨"VERB", verb, level⟩ : Mark).toValue rest
      = .ok (s.withSteps [plainStep verb value level], if expr.isSome then 1 else 0) := by
  have hadd := @FlowStack.add_outer s.flow hblocks (plainStep verb value level) rfl (.int level)
  rw [readToken_mark hin rfl, FlowStack.readMark]
  simp only [hverb, hexpr, bind, Except.bind, hstep, hadd]
  rfl

theorem readToken_text (hin : s.current = some Section.flow.title)
    (hblocks : s.flow.blocks = []) (htext : isPhrase text) (level : Int) (rest : List Value) :
    readToken s (⟨"EXPR", text, level⟩ : Mark).toValue rest
      = .ok (s.withSteps [plainStep text (.str "") level], 0) := by
  have hstep : lineStep text (.int level) = plainStep text (.str "") level := by
    rw [lineStep, strip_of_trimmed htext.2]
    rfl
  have hadd := @FlowStack.add_outer s.flow hblocks (plainStep text (.str "") level) rfl (.int level)
  rw [readToken_mark hin rfl, FlowStack.readMark]
  simp only [hstep, hadd]
  rfl

theorem exprAfter?_text (level own : Int) (text : String) (rest : List Value) :
    exprAfter? (.int level) ((⟨"EXPR", text, own⟩ : Mark).toValue :: rest)
      = .ok (if own = level then some (strip text) else none) := by
  have hsame : (Value.int own).same (.int level) = (own == level) := rfl
  have hrequire : (⟨"EXPR", text, own⟩ : Mark).toValue.require "nesting" = .ok (.int own) := rfl
  rw [exprAfter?, hrequire]
  dsimp only [bind, Except.bind]
  rw [hsame]
  by_cases h : own = level
  · rw [if_pos h, beq_iff_eq.mpr h]
    rfl
  · rw [if_neg h, beq_eq_false_iff_ne.mpr h]
    rfl

theorem verbStep_leaf (h : verb ∈ ["Make", "Show", "Return"]) (text : String) (level : Int) :
    TreeState.verbStep (lower (strip verb)) (some text) (.int level)
      = plainStep verb (.str text) level := by
  have hverbs : ∀ v ∈ ["Make", "Show", "Return"], (lower (strip v) == "repeat") = false ∧
      (lower (strip v) == "try" || lower (strip v) == "choose") = false ∧
      title (lower (strip v)) = v := by decide +kernel
  obtain ⟨hrepeat, hblock, htitle⟩ := hverbs verb h
  rw [verbStep, hrepeat, hblock, htitle]
  rfl

theorem verbStep_repeat (level : Int) :
    TreeState.verbStep (lower (strip "Repeat")) none (.int level)
      = plainStep "Repeat" .null level := by
  have hlower : lower (strip "Repeat") = "repeat" := by decide +kernel
  have htitle : title "repeat" = "Repeat" := by decide +kernel
  rw [hlower, verbStep, htitle]
  rfl

theorem readTokens_of_readToken {s' : TreeState} {tok : Value} {rest : List Value} {taken : Nat}
    (h : readToken s tok rest = .ok (s', taken)) :
    readTokens s 0 (tok :: rest) = readTokens s' taken rest := by
  rw [readTokens, h]
  rfl

theorem readTokens_bullet (hin : s.current = some Section.flow.title)
    (hblocks : s.flow.blocks = []) (last : Option Nat) (hb : b.IsReadable) (rest : List Value) :
    readTokens s 0 ((b.marks last).map Mark.toValue ++ rest)
      = readTokens (s.withSteps (b.steps last)) 0 rest := by
  have hphrase := hb.plain.isPhrase_text
  rw [marks, steps]
  cases hrepeat : b.isRepeat with
  | false =>
    have hverbs : ∀ v ∈ verbs, splitJoined? v = none := by decide +kernel
    have hexpr := exprAfter?_text (b.raised last) (b.raised last) b.sentence.text rest
    rw [if_pos rfl, strip_of_trimmed hphrase.2] at hexpr
    exact readTokens_of_readToken (readToken_verb hin hblocks (hverbs _ (verb_mem b.sentence)) hexpr
      (verbStep_leaf (verb_mem_of_leaf hrepeat) b.sentence.text (b.raised last)))
  | true =>
    obtain ⟨name, range, hs⟩ := exists_of_isRepeat hrepeat
    have hverb : b.sentence.verb = "Repeat" := by rw [hs]; rfl
    -- The header is a level deeper than its verb, so the verb does not take it along.
    have hexpr := exprAfter?_text b.level (b.level + 1) b.sentence.text rest
    rw [if_neg (by omega)] at hexpr
    have hread := @readToken_verb "Repeat" s hin hblocks (by decide +kernel) _ _ _ hexpr _
      (verbStep_repeat b.level)
    have htext := @readToken_text b.sentence.text
      (s.withSteps [plainStep "Repeat" .null b.level]) hin rfl hphrase (b.level + 1) rest
    rw [raised_of_isRepeat last hrepeat, hverb]
    exact (readTokens_of_readToken hread).trans (readTokens_of_readToken htext)

theorem readTokens_bullets (hin : s.current = some Section.flow.title)
    (hblocks : s.flow.blocks = []) (last : Option Nat) (h : ∀ b ∈ bs, b.IsReadable)
    (rest : List Value) : readTokens s 0 ((inTurn Bullet.marks last bs).map Mark.toValue ++ rest)
      = readTokens (s.withSteps (inTurn Bullet.steps last bs)) 0 rest := by
  induction bs generalizing s last with
  | nil =>
    -- `withSteps` empties the open blocks, so it keeps only a state that has none.
    rcases s with ⟨_, _, _, _, _, _, ⟨blocks, outer⟩, _, _⟩
    obtain rfl : blocks = [] := hblocks
    rfl
  | cons b bs ih =>
    rw [inTurn, inTurn, map_append, append_assoc,
      readTokens_bullet hin hblocks last (h b mem_cons_self),
      @ih (s.withSteps (b.steps last)) hin rfl _ fun c hc => h c (mem_cons_of_mem b hc),
      withSteps, withSteps, withSteps, reverse_append,
      append_assoc]

/-! ### Conditionals -/

theorem prepareStep_plainStep (group : Value → Except Error (List Value)) (verb : String)
    (expr : Value) (level : Int) :
    prepareStep group (plainStep verb expr level) = .ok (plainStep verb expr level) := by
  have hgroup : groupBody group (plainStep verb expr level) = .ok (plainStep verb expr level) := rfl
  have hlookup : (plainStep verb expr level).lookup "verb" = .ok (.str verb) := rfl
  have hverb := toText_orElse verb "lower"
  have habsorb : absorbBranches (plainStep verb expr level) = .ok (plainStep verb expr level) := by
    have hfield : ((plainStep verb expr level).field "verb").orElse (.str "")
        = (Value.str verb).orElse (.str "") := rfl
    have hblock : ((plainStep verb expr level).field "is_block").truthy = false := rfl
    rw [absorbBranches, hfield, hverb]
    dsimp only [bind, Except.bind]
    rw [hblock, Bool.not_false, Bool.or_true]
    rfl
  rw [prepareStep, hgroup]
  dsimp only [bind, Except.bind]
  rw [hlookup]
  dsimp only
  rw [hverb]
  dsimp only
  by_cases hchoose : (lower verb == "choose") = true
  · rw [if_pos hchoose]
    exact habsorb
  · rw [if_neg hchoose]
    rfl

theorem startOf_plainStep (verb : String) (expr : Value) (level : Int) :
    startOf true (plainStep verb expr level) = conditional verb := by
  have hfield : (plainStep verb expr level).field "verb" = .str verb := rfl
  rw [startOf, hfield]
  exact if_pos rfl

theorem groupWith_plainSteps (prepare : Value → Except Error Value) {steps : List Value}
    (h : ∀ v ∈ steps, prepare v = .ok v ∧ isBranch (startOf true v) = false) :
    groupWith true prepare steps.length steps = .ok steps := by
  induction steps with
  | nil => rfl
  | cons v steps ih =>
    obtain ⟨hprepare, hstart⟩ := h v mem_cons_self
    have hrest := ih fun w hw => h w (mem_cons_of_mem v hw)
    rw [length_cons, groupWith, hprepare]
    dsimp only [bind, Except.bind]
    rw [hrest]
    cases hcond : startOf true v with
    | branch head condition action => rw [hcond] at hstart; exact nomatch hstart
    | plain => rfl
    | otherwise => rfl

theorem mem_inTurn {β : Type} {f : Option Nat → Bullet → List β} {v : β}
    (h : v ∈ inTurn f last bs) : ∃ last', ∃ b ∈ bs, v ∈ f last' b := by
  induction bs generalizing last with
  | nil => cases h
  | cons b bs ih =>
    rcases mem_append.mp h with h | h
    · exact ⟨last, b, mem_cons_self, h⟩
    · obtain ⟨last', c, hc, hv⟩ := ih h
      exact ⟨last', c, mem_cons_of_mem b hc, hv⟩

theorem groupConditionals_steps (depth : Nat) (h : ∀ b ∈ bs, b.IsReadable) :
    groupConditionals true (depth + 1) (.list (inTurn Bullet.steps last bs))
      = .ok (inTurn Bullet.steps last bs) := by
  -- A step is a conditional line by its verb, and a header stands where a verb does:
  -- of the headers, those that read as one are not plain.
  have hverbs : ∀ v ∈ verbs, isBranch (conditional v) = false := by decide +kernel
  refine groupWith_plainSteps _ fun v hv => ?_
  obtain ⟨last', b, hb, hv⟩ := mem_inTurn hv
  rw [steps] at hv
  split at hv
  · rename_i hrepeat
    obtain ⟨name, range, hs⟩ := exists_of_isRepeat hrepeat
    have hplain := (h b hb).plain
    rw [hs] at hplain
    simp only [mem_cons, not_mem_nil, or_false] at hv
    rcases hv with rfl | rfl
    · rw [startOf_plainStep]
      exact ⟨prepareStep_plainStep _ _ _ _, hverbs "Repeat" (by decide)⟩
    · rw [startOf_plainStep, hs]
      exact ⟨prepareStep_plainStep _ _ _ _, hplain.2.2.2⟩
  · rw [mem_singleton.mp hv, startOf_plainStep]
    exact ⟨prepareStep_plainStep _ _ _ _, hverbs _ (verb_mem b.sentence)⟩

/-! ### The tree -/

/-- A text whose flow is a list of bullets, with blank lines between them. The
    last heading that opens a flow counts, and other sections are as they may. -/
structure Layout (text : String) (bs : List Bullet) where
  before : List String
  heading : String
  value : String
  body : List String
  after : List String
  lines_eq : lines text = before ++ heading :: (body ++ after)
  opens : sectionOf? heading = some (.flow, value)
  bare : strip value = ""
  body_eq : body.filter (!isBlankLine ·) = bs.map Bullet.line
  ends : ∀ line, after.head? = some line → (sectionOf? line).isSome
  last : ∀ line ∈ after, ∀ value, sectionOf? line ≠ some (.flow, value)

namespace Layout

variable {text : String} {bs : List Bullet}

theorem hasFlow (layout : Layout text bs) (h : ∀ b ∈ bs, b.IsReadable) :
    HasFlow text ((bs.flatMap Bullet.tokens).map Token.mark) := by
  obtain ⟨htokens, hsection⟩ := tokensOfLines_bullets layout.body_eq h
  rw [← htokens]
  exact hasFlow_of_lines layout.lines_eq layout.opens layout.bare hsection layout.ends layout.last

end Layout

theorem Layout.exists_treeOf (layout : Layout text bs) (h : ∀ b ∈ bs, b.IsReadable) :
    ∃ s : TreeState, treeOf text = .ok (s.tree (inTurn Bullet.steps none bs)) := by
  have hfinish : FlowStack.finish ⟨[], (inTurn steps none bs).reverse⟩
      = inTurn steps none bs := by
    simp [FlowStack.finish, FlowStack.closeAll]
  have hread (s : TreeState) (after : List Mark) (hin : s.current = some Section.flow.title)
      (hflow : s.flow = {}) :
      readTokens s 0 ((inTurn marks none bs ++ after).map toValue) = readTokens
        { s with flow := ⟨[], (inTurn steps none bs).reverse⟩ } 0 (after.map toValue) := by
    have hbullets := readTokens_bullets hin (by rw [hflow]) none h (after.map toValue)
    rw [← map_append, withSteps, hflow, append_nil] at hbullets
    exact hbullets
  obtain ⟨s, hs⟩ := (layout.hasFlow h).exists_treeOf (inTurn marks none bs)
    ⟨[], (inTurn steps none bs).reverse⟩
    (fun done => by rw [map_map]; exact ClauseState.foldlM_bullets rfl rfl h)
    (forall_mem_nil _) fun s after hin hflow _ => hread s after hin hflow
  rw [hfinish, groupConditionals_steps _ h] at hs
  exact ⟨s, hs⟩

end Loom.Outline
