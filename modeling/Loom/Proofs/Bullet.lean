import Loom.Proofs.Tagged

/-!
# Bullets of a Flow

A bullet is a line with an indentation, a tag and a sentence, such as
`  a. Show x + 1`. The patterns that lines are tried against were not made for
bullets alone: a bullet may fit the pattern of a heading as well, and which
section a line opens is decided by the name it gives, in any case of letters.
So each bullet is followed through those patterns, and its tokens are what one
expects: the verb and the text after it, nested by half the indentation.
-/

namespace Loom.Outline

open Loom.Text Loom.Text.Pattern List

variable {c : Char} {tag g rest : List Char} {s : Sentence}

inductive Sentence where
  | makes (name expr : String)
  | shows (expr : String)
  | returns (expr : String)
  | repeats (name range : String)

namespace Sentence

def verb : Sentence → String
  | makes _ _ => "Make"
  | shows _ => "Show"
  | returns _ => "Return"
  | repeats _ _ => "Repeat"

def text : Sentence → String
  | makes name expr => name ++ " = " ++ expr
  | shows expr | returns expr => expr
  | repeats name range => name ++ " in " ++ range

def chars (s : Sentence) : List Char := s.verb.toList ++ ' ' :: s.text.toList

end Sentence

def verbs : List String := ["Make", "Show", "Return", "Repeat"]

theorem verb_mem (s : Sentence) : s.verb ∈ verbs := by
  cases s <;> simp [Sentence.verb, verbs]

structure Bullet where
  level : Nat
  tag : List Char
  gap : List Char
  sentence : Sentence
  isTag : isTag tag
  isGap : gap.all isBlank

/-- A bullet as it is written, two blanks for each level. -/
def Bullet.chars (b : Bullet) : List Char :=
  replicate (2 * b.level) ' ' ++ (b.tag ++ '.' :: (b.gap ++ b.sentence.chars))

def Bullet.line (b : Bullet) : String := String.ofList b.chars

theorem toList_line (b : Bullet) : b.line.toList = replicate (2 * b.level) ' ' ++
    (b.tag ++ '.' :: (b.gap ++ b.sentence.chars)) :=
  String.toList_ofList

theorem isVerb (s : Sentence) : IsVerb s.verb.toList := by
  have hall : ∀ v ∈ verbs, v.toList.all isAsciiLetter ∧
      knownVerbs.contains (lower v) := by decide +kernel
  obtain ⟨hletters, hknown⟩ := hall _ (verb_mem s)
  exact ⟨all_eq_true.mp hletters, by rwa [String.ofList_toList]⟩

theorem head_chars (s : Sentence) (c : Char) (h : s.chars.head? = some c) : isBlank c = false :=
  (isVerb s).head_append _ c h

theorem isBlank_of_mem_indent (n : Nat) : ∀ c ∈ replicate n ' ', isBlank c := by
  intro c hc
  rw [eq_of_mem_replicate hc]
  decide

/-! ### No section -/

theorem exists_of_name_append {w t : List Char} (hsplit : w ++ t = g ++ (s.verb.toList ++ rest))
    (hg : ∀ c ∈ g, isBlank c) (ht : (∀ c ∈ t, isBlank c) ∨ t.head? = some ':') :
    ∃ more, w = g ++ (s.verb.toList ++ more) := by
  obtain ⟨v, vs, hverb, _⟩ := (isVerb s).exists_cons
  have hletters := hverb ▸ (isVerb s).letters
  rw [← append_assoc, append_eq_append_iff] at hsplit
  rcases hsplit with ⟨a, hga, hta⟩ | ⟨more, hw, _⟩
  · -- what is left of the verb would have to be blank or a colon
    rcases eq_nil_or_concat a with rfl | ⟨front, last, rfl⟩
    · exact ⟨[], by rw [append_nil] at hga ⊢; exact hga.symm⟩
    · exfalso
      rw [concat_eq_append] at hga hta
      rcases ht with ht | ht
      · have hlast : last ∈ v :: vs := by
          have hend := congrArg getLast? hga
          rw [hverb, getLast?_append_cons, ← append_assoc, getLast?_concat] at hend
          exact mem_of_getLast? hend
        have hblank := ht last (by rw [hta]; simp)
        rw [isBlank_of_isAsciiLetter (hletters last hlast)] at hblank
        cases hblank
      · have hcolon : ':' ∈ g ++ s.verb.toList := by
          rw [hga, mem_append]
          rw [hta, append_assoc, head?_append] at ht
          refine .inr ?_
          cases front with
          | nil => rw [← Option.some_inj.mp ht]; exact mem_singleton_self _
          | cons c front => rw [← Option.some_inj.mp ht]; exact mem_cons_self
        rw [hverb] at hcolon
        rcases mem_append.mp hcolon with h | h
        · exact absurd (hg ':' h) (by decide)
        · exact absurd (hletters ':' h) (by decide)
  · exact ⟨more, by rw [hw, append_assoc]⟩

theorem exists_strip_name {w more : List Char} (hw : w = g ++ (s.verb.toList ++ more))
    (hg : ∀ c ∈ g, isBlank c) :
    ∃ rest, (strip (String.ofList w)).toList = s.verb.toList ++ rest := by
  obtain ⟨v, vs, hverb, _⟩ := (isVerb s).exists_cons
  have hletters := hverb ▸ (isVerb s).letters
  have hstart : w.dropWhile isBlank = s.verb.toList ++ more := by
    rw [hw, dropWhile_append_of_pos hg, dropWhile_of_head ((isVerb s).head_append more)]
  refine ⟨dropEndWhile isBlank more, ?_⟩
  rw [strip, stripWhere, String.toList_ofList, String.toList_ofList, stripChars, hstart]
  exact dropEndWhile_append_of_last (fun c hc =>
    isBlank_of_isAsciiLetter ((isVerb s).letters c (mem_of_getLast? hc))) more

theorem ofName?_eq_none {name : String} (h : name.toList = s.verb.toList ++ rest) :
    Section.ofName? name = none := by
  have hlower : (lower name).toList = lowerFrom [] (s.verb.toList ++ rest) := by
    rw [lower, String.toList_ofList, h]
  rw [Section.ofName?, find?_eq_none]
  intro sec _ heq
  have heq : (lower sec.title).toList.take 2 = (lowerFrom [] (s.verb.toList ++ rest)).take 2 := by
    rw [← hlower, eq_of_beq heq]
  have htitles : (lower sec.title).toList.take 2 ∉ [['m', 'a'], ['s', 'h'], ['r', 'e']] := by
    cases sec <;> decide +kernel
  refine htitles ?_
  rw [heq]
  cases s <;> simp [Sentence.verb, lowerFrom, lowerBetween, lowerForm, lowerChar]

def nameChar (c : Char) : Bool := isAsciiLetter c || c == ' '

def nameValue : Pattern := optional (chr ':' ++ gap ++ named "value" (many onLine))

theorem opened?_eq_none {m : Match} {here mid next : Place} {gm : Groups}
    (hname : (named "name" (few1 nameChar)).Fits here [] mid gm)
    (hvalue : nameValue.Fits mid gm next m.groups) (hend : ∀ c ∈ next.rest, isBlank c)
    (hrest : here.rest = g ++ (s.verb.toList ++ rest)) (hg : ∀ c ∈ g, isBlank c) :
    opened? m = none := by
  obtain ⟨_, ⟨mid', _, ⟨c, _, hc, _, rfl⟩, w, _, hw, _, rfl⟩, rfl⟩ := hname
  have hsplit : here.rest = (c :: w) ++ mid.rest := by rw [hc, hw, cons_append]
  have htake : here.rest.take (here.rest.length - mid.rest.length) = c :: w := by
    rw [hsplit, length_append, Nat.add_sub_cancel, take_left]
  have hafter : (∀ c ∈ mid.rest, isBlank c) ∨ mid.rest.head? = some ':' := by
    rcases hvalue with ⟨_, _, ⟨_, _, ⟨d, hd, hcolon, _⟩, _⟩, _⟩ | ⟨rfl, _⟩
    · exact .inr (by rw [hcolon, eq_of_beq hd]; rfl)
    · exact .inl hend
  have hgroup : m.group "name" = String.ofList (c :: w) := by
    rw [htake] at hvalue
    rcases hvalue with ⟨_, _, ⟨_, _, ⟨_, _, _, _, rfl⟩, ⟨_, _, _, _, rfl⟩⟩, ⟨_, ⟨_, _, _, _, rfl⟩, hgs⟩⟩ |
      ⟨_, hgs⟩
    · rw [Match.group, Match.group?, hgs]
      rfl
    · rw [Match.group, Match.group?, hgs]
      rfl
  obtain ⟨more, hmore⟩ := exists_of_name_append (hsplit.symm.trans hrest) hg hafter
  obtain ⟨tail, htail⟩ := exists_strip_name hmore hg
  rw [opened?, hgroup, ofName?_eq_none htail]
  rfl

theorem exists_of_blank_append {gap : List Char} (hgap : ∀ c ∈ gap, isBlank c)
    (hg : ∀ c ∈ g, isBlank c) (h : gap ++ rest = g ++ s.chars) :
    ∃ more, rest = more ++ s.chars ∧ ∀ c ∈ more, isBlank c := by
  rcases append_eq_append_iff.mp h with ⟨more, rfl, hrest⟩ | ⟨extra, rfl, hchars⟩
  · exact ⟨more, hrest, fun c hc => hg c (mem_append_right gap hc)⟩
  · cases extra with
    | nil => exact ⟨[], hchars.symm, forall_mem_nil _⟩
    | cons c extra =>
      have hletter := head_chars s c (by rw [hchars]; rfl)
      have hblank := hgap c (mem_append_right g mem_cons_self)
      rw [hletter] at hblank
      cases hblank

theorem opened?_heading (b : Bullet) : (heading.match? b.line).bind opened? = none := by
  cases hm : heading.match? b.line with
  | none => rfl
  | some m =>
    obtain ⟨_, _, _, ⟨next, gn, ⟨mid', _, ⟨here, _, ⟨_, _, ⟨_, _, ⟨_, _, ⟨_, _, ⟨_, rfl, rfl⟩,
      indent, hindent, htext, _, rfl⟩, ⟨_, _, ⟨d, hd, hd', _, rfl⟩, tag, htag, htag', _, rfl⟩⟩,
      ⟨p, hp, hpoint, _, rfl⟩⟩, gap, hgap, hgap', _, rfl⟩, hname⟩, hvalue⟩,
      blanks, hblanks, hrest, _, rfl⟩, hend, rfl, hgroups⟩ := fits_of_match? hm
    have hcut : indent ++ d :: tag ++ '.' :: (gap ++ here.rest)
        = replicate (2 * b.level) ' ' ++ b.tag ++ '.' :: (b.gap ++ b.sentence.chars) := by
      rw [append_assoc, append_assoc, ← toList_line]
      change b.line.toList = _ at htext
      rw [htext, hd', htag', hpoint, hgap', eq_of_beq hp]
      rfl
    have hx : '.' ∉ indent ++ d :: tag := by
      intro hmem
      rcases mem_append.mp hmem with hmem | hmem
      · exact absurd (hindent '.' hmem) (by decide)
      · rcases mem_cons.mp hmem with rfl | hmem
        · exact absurd hd (by decide)
        · exact absurd (htag '.' hmem) (by decide)
    have hu : '.' ∉ replicate (2 * b.level) ' ' ++ b.tag := by
      intro hmem
      rcases mem_append.mp hmem with hmem | hmem
      · exact absurd (eq_of_mem_replicate hmem) (by decide)
      · exact point_not_mem_tag b.isTag hmem
    obtain ⟨more, hmore, hblank⟩ := exists_of_blank_append hgap
      (all_eq_true.mp b.isGap) (append_cons_inj hx hu hcut).2
    rw [← hgroups] at hvalue
    rw [Option.bind_some]
    refine opened?_eq_none hname hvalue (fun c hc => ?_) hmore hblank
    rw [hrest] at hc
    rcases mem_append.mp hc with hc | hc
    · exact hblanks c hc
    · exact isBlank_of_finish hend c hc

theorem opened?_inlineSection (s : Sentence) :
    (inlineSection.match? (String.ofList s.chars)).bind opened? = none := by
  cases hm : inlineSection.match? (String.ofList s.chars) with
  | none => rfl
  | some m =>
    obtain ⟨_, _, _, ⟨mid, _, ⟨_, _, ⟨_, rfl, rfl⟩, hname⟩, hvalue⟩, hend, rfl, hgroups⟩ :=
      fits_of_match? hm
    rw [← hgroups] at hvalue
    rw [Option.bind_some]
    have hchars : (String.ofList s.chars).toList = [] ++ (s.verb.toList ++ ' ' :: s.text.toList) :=
      String.toList_ofList
    exact opened?_eq_none hname hvalue (isBlank_of_finish hend) hchars (forall_mem_nil _)

theorem sectionOf?_bullet (b : Bullet) (hline : ∀ c ∈ b.sentence.chars, onLine c) :
    sectionOf? b.line = none := by
  rw [sectionOf?, opened?_heading, match?_tagged (toList_line b) (isBlank_of_mem_indent _) b.isTag
    (all_eq_true.mp b.isGap) (head_chars b.sentence) hline]
  dsimp only
  split
  · exact opened?_inlineSection b.sentence
  · rfl

/-! ### The verb -/

/-- A part of a line that has no blanks around it and is not empty. -/
def isPhrase (s : String) : Prop := s.toList ≠ [] ∧ Trimmed isBlank s.toList

instance : DecidablePred isPhrase := fun _ => inferInstanceAs (Decidable (_ ∧ _))

theorem trimmed_chars (h : isPhrase s.text) : Trimmed isBlank s.chars :=
  trimmed_verb (isVerb s) (iff_of_false (cons_ne_nil ' ' []) h.1) h.2

theorem flowVerb?_sentence (h : isPhrase s.text) (hline : ∀ c ∈ s.chars, onLine c) :
    flowVerb? (String.ofList s.chars) = some (lower s.verb, s.text) := by
  have hfound := flowVerb?_known (isVerb s) (forall_mem_singleton.mpr (by decide))
    (iff_of_false (cons_ne_nil ' ' []) h.1) h.2
    (fun c hc => hline c (mem_append_right _ (mem_cons_of_mem _ hc)))
  rwa [String.ofList_toList, String.ofList_toList] at hfound

theorem nestingOf_replicate (n : Nat) : nestingOf (replicate (2 * n) ' ') = n := by
  have hwidth : ∀ (k width : Nat), (replicate k ' ').foldl
      (fun width c => width + if c == '\t' then 4 else 1) width = width + k := by
    intro k
    induction k with
    | zero => exact fun _ => rfl
    | succ k ih =>
      intro width
      rw [replicate_succ, foldl_cons, ih]
      change width + 1 + k = _
      omega
  rw [nestingOf, hwidth]
  omega

theorem lineTokens_bullet {b : Bullet} (h : isPhrase b.sentence.text)
    (hline : ∀ c ∈ b.sentence.chars, onLine c) :
    lineTokens (some .flow) b.line = (some .flow,
      [⟨.verb, b.sentence.verb, b.level⟩, ⟨.expr, b.sentence.text, b.level⟩]) := by
  have hstrip : strip (String.ofList b.sentence.chars) = String.ofList b.sentence.chars :=
    strip_of_trimmed (by rw [String.toList_ofList]; exact trimmed_chars h)
  have hverbs : ∀ v ∈ verbs, title (lower v) = v := by decide +kernel
  rw [lineTokens_tagged (toList_line b) (isBlank_of_mem_indent _) b.isTag
    (all_eq_true.mp b.isGap) (head_chars b.sentence) hline (sectionOf?_bullet b hline), hstrip,
    nestingOf_replicate, flowTokens, flowVerb?_sentence h hline]
  dsimp only
  rw [hverbs _ (verb_mem b.sentence)]

end Loom.Outline
