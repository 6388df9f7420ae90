import Loom.Proofs.Tagged

/-!
# Lines in Normal Form

A line that begins with a tag and a verb is set in one way: after a number there
is one blank, a few verbs get their capital, and the runs of blanks become one.
Here such a line is cut into its parts, and setting it is shown to be an operation
on the parts that changes neither the verb, as a token, nor the text after it.

The text after the verb has to be free of runs of blanks. It may hold a quoted
text, and setting a line does not look at quotes.
-/

namespace Loom.Outline

open Loom.Text Loom.Text.Pattern List Option
open String (ofList toList_ofList ofList_toList)

variable {s line : String} {cs : List Char} (w : Wording)

/-- The parts of a line: a tag, a verb in any case of letters, and a text after it
    that is free of runs of blanks. -/
structure Wording where
  tag : List Char
  gap : List Char
  verb : List Char
  pause : List Char
  text : List Char
  isTag : isTag tag
  isGap : ∀ c ∈ gap, isBlank c
  isVerb : IsVerb verb
  isPause : ∀ c ∈ pause, isSpacing c
  isPaused : pause = [] ↔ text = []
  isTrimmed : Trimmed isBlank text
  isSqueezed : squeeze text = text

namespace Wording

def content (w : Wording) : List Char := w.verb ++ (w.pause ++ w.text)

def chars (w : Wording) : List Char := w.tag ++ '.' :: (w.gap ++ w.content)

def tokens (w : Wording) (nesting : Nat) : List Token :=
  [⟨.verb, title (lower (ofList w.verb)), nesting⟩, ⟨.expr, ofList w.text, nesting⟩]

theorem trimmed_content : Trimmed isBlank w.content :=
  trimmed_verb w.isVerb w.isPaused w.isTrimmed

theorem content_ne_nil : w.content ≠ [] := by
  obtain ⟨c, cs, hverb, _⟩ := w.isVerb.exists_cons
  rw [content, hverb]
  exact cons_ne_nil _ _

theorem trimmed_chars : Trimmed isBlank w.chars := by
  refine ⟨head_tag w.isTag _, fun c hc => w.trimmed_content.last c ?_⟩
  rwa [chars, ← cons_append, ← append_assoc, getLast?_append_of_ne_nil _ w.content_ne_nil] at hc

theorem textTokens_chars (hline : ∀ c ∈ w.text, onLine c)
    (hs : s.toList = w.chars) (nesting : Nat) : textTokens s nesting = w.tokens nesting := by
  have hstrip : strip (ofList (w.gap ++ w.content)) = ofList w.content := by
    have hwhole : (ofList (w.gap ++ w.content)).toList = w.gap ++ (w.content ++ []) := by
      rw [toList_ofList, append_nil]
    rw [strip_of_blanks hwhole w.isGap (forall_mem_nil _)]
    exact strip_of_trimmed (by rw [toList_ofList]; exact w.trimmed_content)
  rw [textTokens, hs, chars, cutTag_append w.isTag]
  dsimp only
  rw [hstrip, flowTokens, content, flowVerb?_known w.isVerb w.isPause w.isPaused w.isTrimmed hline]
  rfl

/-! ### Setting the parts -/

def onePause (text : List Char) : List Char := if text.isEmpty then [] else [' ']

theorem isSpacing_onePause (text : List Char) : ∀ c ∈ onePause text, isSpacing c := by
  rw [onePause]
  split
  · exact forall_mem_nil _
  · exact forall_mem_singleton.mpr (by decide)

theorem onePause_eq_nil (text : List Char) : onePause text = [] ↔ text = [] := by
  cases text with
  | nil => exact ⟨fun _ => rfl, fun _ => rfl⟩
  | cons c cs => exact ⟨nofun, nofun⟩

theorem squeeze_content : squeeze w.content = w.verb ++ (onePause w.text ++ w.text) := by
  have hverb : ∀ c ∈ w.verb, isSpacing c = false := fun c hc =>
    isSpacing_of_not_isBlank (isBlank_of_isAsciiLetter (w.isVerb.letters c hc))
  rw [content]
  by_cases htext : w.text = []
  · rw [w.isPaused.mpr htext, htext, onePause]
    simpa using squeeze_of_plain hverb
  · have hpause : w.pause ≠ [] := fun h => htext (w.isPaused.mp h)
    have hfirst : ∀ c, w.text.head? = some c → isSpacing c = false :=
      fun c hc => isSpacing_of_not_isBlank (w.isTrimmed.first c hc)
    rw [squeeze_run hverb hpause w.isPause hfirst, w.isSqueezed, onePause,
      if_neg (by rw [List.isEmpty_iff]; exact htext)]
    rfl

theorem squeeze_chars : squeeze w.chars
      = w.tag ++ '.' :: (squeeze w.gap ++ (w.verb ++ (onePause w.text ++ w.text))) := by
  have hfirst : ∀ c, w.content.head? = some c → isSpacing c = false :=
    fun c hc => isSpacing_of_not_isBlank (w.trimmed_content.first c hc)
  have htag : ∀ c ∈ w.tag ++ ['.'], isSpacing c = false := by
    intro c hc
    rcases mem_append.mp hc with hc | hc
    · exact isSpacing_of_not_isBlank (isBlank_of_mem_tag w.isTag c hc)
    · rw [mem_singleton.mp hc]
      decide
  have hpoint : endsInRun false (w.tag ++ ['.']) = false := by
    rw [endsInRun, getLast?_concat]
    decide
  have hstart : squeeze (w.tag ++ ['.'] ++ w.gap) = w.tag ++ ['.'] ++ squeeze w.gap := by
    rw [squeeze, squeezeFrom_append, hpoint]
    exact congrArg (· ++ squeeze w.gap) (squeeze_of_plain htag)
  have hchars : w.chars = w.tag ++ ['.'] ++ w.gap ++ w.content := by
    rw [chars, append_assoc, append_assoc]
    rfl
  rw [hchars, squeeze_append _ hfirst, hstart, w.squeeze_content, append_assoc, append_assoc]
  rfl

def capitalOf? (verb : String) : Option String :=
  (capitalVerbs.find? fun v => v.1 == lower verb).map (·.2)

def capital (verb : List Char) : List Char :=
  ((capitalOf? (ofList verb)).map String.toList).getD verb

theorem isVerb_capital {verb : List Char} (h : IsVerb verb) :
    IsVerb (capital verb) ∧ lower (ofList (capital verb)) = lower (ofList verb) := by
  have hall : ∀ v ∈ capitalVerbs, v.2.toList.all isAsciiLetter ∧ lower v.2 = v.1 := by
    decide +kernel
  rw [capital, capitalOf?]
  cases hfind : capitalVerbs.find? fun v => v.1 == lower (ofList verb) with
  | none => exact ⟨h, rfl⟩
  | some v =>
    obtain ⟨hletters, hlower⟩ := hall v (mem_of_find?_eq_some hfind)
    have hcapital : lower (ofList v.2.toList) = lower (ofList verb) := by
      have hsame := find?_some hfind
      rw [ofList_toList, hlower]
      exact eq_of_beq hsame
    exact ⟨⟨all_eq_true.mp hletters,
      by rw [map_some, map_some, getD_some, hcapital]; exact h.known⟩,
      hcapital⟩

theorem normalStep_word {head : String} (h : partition (collapse s) " " = (head, none)) :
    normalStep s = (capitalOf? head).getD (collapse s) := by
  unfold normalStep capitalOf?
  simp only [h]
  cases capitalVerbs.find? fun v => v.1 == lower head <;> rfl

theorem normalStep_words {head tail : String} (h : partition (collapse s) " " = (head, some tail))
    (htail : tail.isEmpty = false) :
    normalStep s = ((capitalOf? head).map (· ++ " " ++ tail)).getD (collapse s) := by
  unfold normalStep capitalOf?
  simp only [h, htail]
  cases capitalVerbs.find? fun v => v.1 == lower head <;> rfl

theorem toList_collapse_content (hs : s.toList = w.content) :
    (collapse s).toList = w.verb ++ (onePause w.text ++ w.text) := by
  rw [toList_collapse, strip_of_trimmed (by rw [hs]; exact w.trimmed_content), hs,
    w.squeeze_content]

theorem normalStep_content (hs : s.toList = w.content) :
    (normalStep s).toList = capital w.verb ++ (onePause w.text ++ w.text) := by
  have hcollapse := w.toList_collapse_content hs
  have hblank : ' ' ∉ w.verb := fun h => absurd (w.isVerb.letters ' ' h) (by decide)
  rw [capital]
  by_cases htext : w.text = []
  · have hverb : (collapse s).toList = w.verb := by
      rw [hcollapse, htext]
      exact append_nil _
    have hcut := @partition_of_not_mem ' ' [] " " rfl _ (by rw [hverb]; exact hblank)
    rw [normalStep_word hcut, ← hverb, ofList_toList, htext]
    cases capitalOf? (collapse s) <;> exact (append_nil _).symm
  · have hone : onePause w.text = [' '] := if_neg (by rw [List.isEmpty_iff]; exact htext)
    have hcut := @partition_of_mem w.text w.verb ' ' " " rfl (collapse s)
      (by rw [hcollapse, hone]; rfl) hblank
    have hempty : (ofList w.text).isEmpty = false := by
      rw [← Bool.not_eq_true, String.isEmpty_iff, ← String.toList_inj, toList_ofList]
      exact htext
    rw [normalStep_words hcut hempty, hone]
    cases capitalOf? (ofList w.verb) with
    | none => rw [map_none, getD_none, hcollapse, hone]; rfl
    | some verb =>
      change (verb ++ " " ++ ofList w.text).toList = verb.toList ++ ' ' :: w.text
      simp

end Wording

/-! ### Numbered lines -/

theorem runFew_end {β : Type} {accepts : Char → Bool} {k : Place → Option β}
    (hcs : ∀ c ∈ cs, accepts c)
    (hk : ∀ before u v, cs = u ++ v → v ≠ [] → k ⟨before, v⟩ = none) (before : Option Char) :
    runFew accepts k before cs = k ⟨lastOf before cs, []⟩ := by
  induction cs generalizing before with
  | nil => rfl
  | cons c cs ih =>
    obtain ⟨hc, hcs⟩ := forall_mem_cons.mp hcs
    rw [runFew, hk before [] (c :: cs) rfl (cons_ne_nil c cs), if_pos hc, lastOf_cons]
    exact ih hcs (fun b u v huv hv => hk b (c :: u) v (by rw [huv]; rfl) hv) (some c)

theorem run_gap_finish {β : Type} (hne : cs ≠ [])
    (hlast : ∀ c, cs.getLast? = some c → isBlank c = false) (before : Option Char) (gs : Groups)
    (k : Place → Groups → Option β) : (gap ++ finish).run ⟨before, cs⟩ gs k = none := by
  refine run_eq_none ?_ k
  rintro next groups ⟨mid, _, ⟨w, hw, hrest, _⟩, hend, _⟩
  change cs = w ++ mid.rest at hrest
  cases hc : cs.getLast? with
  | none => exact hne (getLast?_eq_none_iff.mp hc)
  | some c =>
    have hmem := mem_of_getLast? hc
    have hblank : isBlank c := by
      rw [hrest] at hmem
      exact (mem_append.mp hmem).elim (hw c) (isBlank_of_finish hend c)
    rw [hlast c hc] at hblank
    cases hblank

theorem reads_restOfLine (hne : cs ≠ []) (hline : ∀ c ∈ cs, onLine c)
    (hlast : ∀ c, cs.getLast? = some c → isBlank c = false) (name : String) (before : Option Char)
    (gs : Groups) :
    (named name (few1 onLine) ++ (gap ++ finish)).Reads ⟨before, cs⟩ gs ⟨lastOf before cs, []⟩
      ((name, cs) :: gs) := by
  intro β k _
  obtain ⟨c, cs, rfl⟩ := exists_cons_of_ne_nil hne
  obtain ⟨hc, hcs⟩ := forall_mem_cons.mp hline
  have hfew := @runFew_end cs β onLine (fun next => (gap ++ finish).run next
    ((name, (c :: cs).take ((c :: cs).length - next.rest.length)) :: gs) k) hcs
    (fun b u v huv hv => run_gap_finish hv (fun d hd => hlast d (by
      rw [huv, ← cons_append, getLast?_append_of_ne_nil _ hv]
      exact hd)) b _ k) (some c)
  have hone : (one onLine).run ⟨before, c :: cs⟩ gs (fun next groups => (few onLine).run next groups
      fun next groups => (gap ++ finish).run next
        ((name, (c :: cs).take ((c :: cs).length - next.rest.length)) :: groups) k)
      = runFew onLine (fun next => (gap ++ finish).run next
        ((name, (c :: cs).take ((c :: cs).length - next.rest.length)) :: gs) k) (some c) cs := by
    rw [run]
    exact if_pos hc
  refine hone.trans (hfew.trans ?_)
  rw [length_nil, Nat.sub_zero, take_length, lastOf_cons]
  rfl

theorem bulletLine_match? {indent tag gap rest : List Char}
    (hline : line.toList = indent ++ (tag ++ '.' :: (gap ++ rest)))
    (hindent : ∀ c ∈ indent, isBlank c) (htag : tag ≠ []) (hdigits : tag.all isDigit)
    (hgap : ∀ c ∈ gap, isBlank c) (hne : rest ≠ []) (htrimmed : Trimmed isBlank rest)
    (hrest : ∀ c ∈ rest, onLine c) :
    bulletLine.match? line = some ⟨line.toList, [], [("rest", rest), ("number", tag)]⟩ := by
  obtain ⟨d, ds, rfl⟩ := exists_cons_of_ne_nil htag
  obtain ⟨hd, hds⟩ := forall_mem_cons.mp (all_eq_true.mp hdigits)
  have hfirst : ∀ c, (d :: ds ++ '.' :: (gap ++ rest)).head? = some c → isBlank c = false := by
    intro c hc
    rw [← some_inj.mp hc]
    exact isBlank_of_isDigit hd
  have hstart := reads_many hindent hfirst none []
  have hnumber := hstart.seq (reads_named (reads_many1 hd hds (fun c hc => by
    rw [← some_inj.mp hc]; decide +kernel) _ []) rfl "number")
  have hpoint := hnumber.seq (@reads_one (· == '.') '.' rfl _ (gap ++ rest) _)
  have hpassed := hpoint.seq (reads_many hgap htrimmed.first _ _)
  have hall := hpassed.seq (reads_restOfLine hne hrest htrimmed.last "rest" _ _)
  rw [← hline] at hall
  exact match?_of_reads hall

theorem strip_stripEnd (s : String) : strip (stripEnd s) = strip s := by
  have hs := dropEndWhile_append isBlank s.toList
  refine (@strip_of_blanks s [] _ _ hs.symm (forall_mem_nil _) fun c hc => ?_).symm
  exact mem_takeWhile_imp (mem_reverse.mp hc)

theorem toList_stripEnd (h : (strip s).toList ≠ []) :
    (stripEnd s).toList = s.toList.takeWhile isBlank ++ (strip s).toList := by
  obtain ⟨after, hafter, heq⟩ := exists_eq_strip s
  have hlast : ∀ c, (s.toList.takeWhile isBlank ++ (strip s).toList).getLast? = some c →
      isBlank c = false := by
    intro c hc
    rw [getLast?_append_of_ne_nil _ h] at hc
    exact (trimmed_strip s).last c hc
  rw [stripEnd, toList_ofList]
  conv => lhs; rw [heq, ← append_assoc]
  rw [dropEndWhile_append_of_last hlast, dropEndWhile, ← append_nil after.reverse,
    dropWhile_append_of_pos fun c hc => hafter c (mem_reverse.mp hc)]
  exact append_nil _

theorem bulletLine_eq_none {tag rest : List Char}
    (hstrip : (strip line).toList = tag ++ '.' :: rest) (htag : isTag tag)
    (hdigits : tag.all isDigit = false) : bulletLine.match? line = none := by
  refine run_eq_none ?_ _
  rintro next groups ⟨_, _, ⟨_, _, ⟨_, _, ⟨_, _, ⟨_, _, ⟨_, _, ⟨indent, hindent, hline, _⟩,
    ⟨_, ⟨_, _, ⟨d, hd, hd', _⟩, ⟨ds, hds, hds', _⟩⟩, _⟩⟩, ⟨p, hp, hpoint, _⟩⟩, _⟩, _⟩, _⟩, _⟩
  change line.toList = _ at hline
  have hall : (d :: ds).all isDigit := all_eq_true.mpr (forall_mem_cons.mpr ⟨hd, hds⟩)
  have hnumber : isTag (d :: ds) := by rw [isTag, hall]; rfl
  rw [eq_of_beq hp] at hpoint
  rw [hd', hds', hpoint] at hline
  -- Both are what stands before the first point.
  have hcut := cutTag_append htag rest
  rw [← hstrip, exists_strip_tagged hline hindent hnumber, cutTag_append hnumber] at hcut
  rw [← (Prod.mk.inj (some_inj.mp hcut)).1, hall] at hdigits
  exact absurd hdigits.symm Bool.false_ne_true

/-! ### Setting a line -/

def Part.isBody : Part → Bool
  | body => true
  | _ => false

theorem normalStep_collapse (s : String) : normalStep (collapse s) = normalStep s := by
  unfold normalStep
  rw [collapse_collapse]

theorem normalBullet_eq {number rest : String} (h : (normalBullet number rest).2.isBody = false) :
    normalBullet number rest = ([stepIndent ++ number ++ ". " ++ normalStep rest], .flow) := by
  rw [normalBullet] at h ⊢
  split at h
  · cases h
  · rename_i hrepeat
    split at h
    · cases h
    · rename_i hrange
      dsimp only at hrepeat hrange ⊢
      rw [if_neg hrepeat, if_neg hrange, normalStep_collapse]

theorem normalFlowLine_eq (hbullet : bulletLine.match? line = none) (hempty : line.isEmpty = false)
    (h : (normalFlowLine .flow line).2.isBody = false) :
    normalFlowLine .flow line = ([stepIndent ++ collapse line], .flow) := by
  unfold normalFlowLine at h ⊢
  rw [hbullet] at h ⊢
  dsimp only at h ⊢
  split at h
  · cases h
  · rename_i hchoose
    split at h
    · cases h
    · rename_i hheader
      rw [if_neg hchoose, if_neg hheader, hempty]
      rfl

theorem normalFlowLine_part (part : Part) (line : String) :
    (normalFlowLine part line).1.map strip = (normalFlowLine .flow line).1.map strip := by
  have hindent : ∀ indent : String, (∀ c ∈ indent.toList, isBlank c) →
      strip (indent ++ collapse line) = collapse line := by
    intro indent hblank
    rw [@strip_of_blanks _ indent.toList (collapse line).toList [] (by simp) hblank
      (forall_mem_nil _), ofList_toList, strip_collapse]
  unfold normalFlowLine
  cases bulletLine.match? line with
  | some m => rfl
  | none =>
    dsimp only
    split
    · rfl
    · split
      · rfl
      · split
        · rfl
        · cases part with
          | outside => rfl
          | flow => rfl
          | body =>
            have hbody := hindent bodyIndent (all_eq_true.mp (by decide))
            have hstep := hindent stepIndent (all_eq_true.mp (by decide))
            change [strip (bodyIndent ++ collapse line)] = [strip (stepIndent ++ collapse line)]
            rw [hbody, hstep]

namespace Wording

/-- The parts of a line with other blanks and another spelling of the verb. -/
def written (w : Wording) (gap verb : List Char) (hgap : ∀ c ∈ gap, isBlank c = true)
    (hverb : IsVerb verb) : Wording :=
  { w with
    gap := gap
    verb := verb
    pause := onePause w.text
    isGap := hgap
    isVerb := hverb
    isPause := isSpacing_onePause w.text
    isPaused := onePause_eq_nil w.text }

theorem strip_indented (hs : s.toList = stepIndent.toList ++ w.chars) :
    strip s = ofList w.chars := by
  have hblank : ∀ c ∈ stepIndent.toList, isBlank c := all_eq_true.mp (by decide)
  rw [@strip_of_blanks s stepIndent.toList w.chars [] (by rw [hs, append_nil]) hblank
    (forall_mem_nil _)]
  exact strip_of_trimmed (by rw [toList_ofList]; exact w.trimmed_chars)

theorem tag_ne_nil : w.tag ≠ [] := by
  intro hnil
  have htag := w.isTag
  rw [hnil] at htag
  exact absurd htag (by decide)

theorem onLine_content (hstrip : (strip line).toList = w.chars)
    (hline : ∀ c ∈ line.toList, onLine c) : ∀ c ∈ w.content, onLine c := by
  obtain ⟨after, _, heq⟩ := exists_eq_strip line
  intro c hc
  refine hline c ?_
  rw [heq, hstrip, chars]
  simp [hc]

theorem exists_set_numbered (hdigits : w.tag.all isDigit) {indent : List Char}
    (hline : line.toList = indent ++ w.chars) (hindent : ∀ c ∈ indent, isBlank c)
    (hcontent : ∀ c ∈ w.content, onLine c)
    (h : (normalFlowLine .flow line).2.isBody = false) :
    ∃ w' : Wording, w'.text = w.text ∧ (∀ n, w'.tokens n = w.tokens n) ∧
      (normalFlowLine .flow line).1.map strip = [ofList w'.chars] := by
  have hmatch := bulletLine_match? hline hindent w.tag_ne_nil hdigits w.isGap w.content_ne_nil
    w.trimmed_content hcontent
  obtain ⟨hverb, hlower⟩ := isVerb_capital w.isVerb
  refine ⟨w.written [' '] (capital w.verb) (all_eq_true.mp (by decide)) hverb, rfl, ?_, ?_⟩
  · intro n
    rw [tokens, tokens, written, hlower]
  · unfold normalFlowLine at h ⊢
    rw [hmatch] at h ⊢
    dsimp only at h ⊢
    rw [normalBullet_eq h]
    refine congrArg (fun s => [s]) (strip_indented _ ?_)
    have hstep := w.normalStep_content (s := ofList w.content) toList_ofList
    change (stepIndent ++ ofList w.tag ++ ". " ++
        normalStep (ofList w.content)).toList
      = stepIndent.toList ++
        (w.tag ++ '.' :: ' ' :: (capital w.verb ++ (onePause w.text ++ w.text)))
    simp [hstep]

theorem exists_set_lettered (hdigits : w.tag.all isDigit = false)
    (hstrip : (strip line).toList = w.chars) (h : (normalFlowLine .flow line).2.isBody = false) :
    ∃ w' : Wording, w'.text = w.text ∧ (∀ n, w'.tokens n = w.tokens n) ∧
      (normalFlowLine .flow line).1.map strip = [ofList w'.chars] := by
  have hgap : ∀ c ∈ squeeze w.gap, isBlank c := by
    intro c hc
    rcases mem_squeezeFrom hc with rfl | hc
    · decide
    · exact w.isGap c hc
  have hempty : line.isEmpty = false := by
    rw [← Bool.not_eq_true, String.isEmpty_iff]
    rintro rfl
    exact absurd hstrip.symm (append_ne_nil_of_right_ne_nil _ (cons_ne_nil _ _))
  refine ⟨w.written (squeeze w.gap) w.verb hgap w.isVerb, rfl, fun _ => rfl, ?_⟩
  rw [normalFlowLine_eq (bulletLine_eq_none hstrip w.isTag hdigits) hempty h]
  refine congrArg (fun s => [s]) (strip_indented _ ?_)
  rw [String.toList_append, toList_collapse, hstrip, w.squeeze_chars]
  rfl

theorem exists_set (hstrip : (strip line).toList = w.chars)
    (hline : ∀ c ∈ line.toList, onLine c)
    (h : (normalFlowLine .flow (stripEnd line)).2.isBody = false) :
    ∃ w' : Wording, w'.text = w.text ∧ (∀ n, w'.tokens n = w.tokens n) ∧
      (normalFlowLine .flow (stripEnd line)).1.map strip = [ofList w'.chars] := by
  cases hdigits : w.tag.all isDigit with
  | true =>
    have hne : (strip line).toList ≠ [] := by
      rw [hstrip]
      exact append_ne_nil_of_right_ne_nil _ (cons_ne_nil _ _)
    have hwritten := toList_stripEnd hne
    rw [hstrip] at hwritten
    exact w.exists_set_numbered hdigits hwritten (fun c hc => mem_takeWhile_imp hc)
      (w.onLine_content hstrip hline) h
  | false => exact w.exists_set_lettered hdigits (by rw [strip_stripEnd, hstrip]) h

end Wording

/-! ### Even lines -/

def opensSet (line : String) : Bool :=
  flowLine.fits (stripEnd line) || sectionLine.fits (stripEnd line)

/-- A line that loses nothing when it is set: it is set as it is written, but for
    the blanks around it, or it is cut into parts and opens no body. -/
def IsEven (line : String) : Prop := (normalLine .flow line).1.map strip = [strip line] ∨
    (∃ w : Wording, (strip line).toList = w.chars) ∧ (normalLine .flow line).2.isBody = false

def setText (line : String) : String := strip ((normalLine .flow line).1.headD "")

theorem normalLine_outside (h : opensSet line = false) :
    normalLine .outside line = ([stripEnd line], .outside) := by
  obtain ⟨hflow, hsection⟩ := Bool.or_eq_false_iff.mp h
  unfold normalLine
  dsimp only
  rw [hflow, hsection]
  rfl

theorem normalLine_inside (h : opensSet line = false) {part : Part} (hpart : part ≠ .outside) :
    normalLine part line = normalFlowLine part (stripEnd line) := by
  obtain ⟨hflow, hsection⟩ := Bool.or_eq_false_iff.mp h
  unfold normalLine
  dsimp only
  rw [hflow, hsection]
  cases part with
  | outside => exact absurd rfl hpart
  | flow => rfl
  | body => rfl

theorem setText_of_map {text : String} (h : (normalLine .flow line).1.map strip = [text]) :
    setText line = text := by
  obtain ⟨out, hout, rfl⟩ := map_eq_singleton_iff.mp h
  rw [setText, hout]
  rfl

theorem IsEven.textTokens_setText (h : IsEven line) (hset : opensSet line = false)
    (hline : ∀ c ∈ line.toList, onLine c) :
    (normalLine .flow line).1.map strip = [setText line] ∧ (setText line = "" ↔ strip line = "") ∧
      ∀ n, textTokens (setText line) n = textTokens (strip line) n := by
  rcases h with hwritten | ⟨⟨w, hstrip⟩, hplain⟩
  · rw [setText_of_map hwritten]
    exact ⟨hwritten, Iff.rfl, fun _ => rfl⟩
  · have hinside := @normalLine_inside line hset .flow nofun
    rw [hinside] at hplain
    obtain ⟨w', htext, htokens, hout⟩ := w.exists_set hstrip hline hplain
    have honLine : ∀ c ∈ w.text, onLine c := fun c hc =>
      w.onLine_content hstrip hline c (by rw [Wording.content]; simp [hc])
    have hmap : (normalLine .flow line).1.map strip = [ofList w'.chars] := by
      rw [hinside, hout]
    have hne : ∀ (w : Wording) (s : String), s.toList = w.chars → s ≠ "" := by
      rintro w _ hs rfl
      exact absurd hs.symm (append_ne_nil_of_right_ne_nil _ (cons_ne_nil _ _))
    rw [setText_of_map hmap]
    refine ⟨hmap,
      ⟨fun h => absurd h (hne w' _ toList_ofList), fun h => absurd h (hne w _ hstrip)⟩,
      fun n => ?_⟩
    rw [w'.textTokens_chars (by rw [htext]; exact honLine) toList_ofList,
      w.textTokens_chars honLine hstrip, htokens]

end Loom.Outline
