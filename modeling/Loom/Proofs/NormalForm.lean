import Loom.Proofs.Excerpt
import Loom.Proofs.LineKinds
import Loom.Proofs.Sentence
import Mathlib.Data.List.DropRight

/-!
# Outlines with the Same Normal Form

The hash of an outline is taken of its normal form, so that outlines which differ
in spacing only are the same program. That is not so of all outlines. Setting an
outline forgets the indentation of its lines, the runs of blanks in quoted texts
and the capitals of loop headers, and it does not tell a loop header on a line of
its own from one beside its number: all of these can change the flow.

What it may forget are the blanks around a line, after a tag and after a verb, and
the case of a verb. Where nothing else is forgotten and the nesting is the same,
outlines with the same normal form have the same flow.
-/

namespace Loom.Outline

open Loom.Text Loom.Text.Pattern Loom.Flow List
open String (ofList toList_ofList toList_append)

variable {line : String} {cs : List Char} {part : Part} {body ls : List String}

/-! ### Headings -/

def opensSetFlow (line : String) : Bool := flowLine.fits (stripEnd line)

/-- The heading of the flow and the lines under it, as they are found when an
    outline is set. -/
def setFlow (text : String) : Option (String × List String) :=
  lastUnder opensSetFlow opensSet (lines text)

theorem normalLine_flow (h : opensSetFlow line) (part : Part) :
    normalLine part line = (["D. Flow"], .flow) := by
  unfold normalLine
  exact if_pos h

theorem sectionLine_fits (hflow : opensSetFlow line = false) (hset : opensSet line) :
    sectionLine.fits (stripEnd line) := by
  rw [opensSetFlow] at hflow
  rw [opensSet, hflow, Bool.false_or] at hset
  exact hset

theorem normalLine_section (hflow : opensSetFlow line = false) (hset : opensSet line)
    (part : Part) : normalLine part line = ([normalSection (stripEnd line)], .outside) := by
  rw [opensSetFlow] at hflow
  unfold normalLine
  dsimp only
  rw [hflow, if_neg Bool.false_ne_true, if_pos (sectionLine_fits hflow hset)]

def sectionText (title : String) : String := match partition title ":" with
  | (key, some value) => strip key ++ ": " ++ strip value
  | (_, none) => title

variable {title s : String} {u : List Char} {c : Char}

theorem sectionText_of_colon {v : List Char} (h : title.toList = u ++ ':' :: v) (hu : ':' ∉ u) :
    sectionText title = strip (ofList u) ++ ": " ++ strip (ofList v) := by
  rw [sectionText, @partition_of_mem _ _ ':' ":" rfl _ h hu]

theorem sectionText_of_no_colon (h : ':' ∉ title.toList) : sectionText title = title := by
  rw [sectionText, @partition_of_not_mem ':' [] ":" rfl _ h]

theorem sectionLine_match? {indent gap rest : List Char}
    (hline : line.toList = indent ++ (c :: '.' :: (gap ++ rest))) (hindent : Blanks indent)
    (hc : isCapital c) (hgap : Blanks gap) (hne : rest ≠ []) (htrimmed : Trimmed isBlank rest)
    (hrest : ∀ d ∈ rest, Pattern.onLine d) :
    sectionLine.match? line = some ⟨line.toList, [], [("rest", rest), ("letter", [c])]⟩ := by
  have hfirst : ∀ d, (c :: '.' :: (gap ++ rest)).head? = some d → isBlank d = false := by
    intro d hd
    rw [← Option.some_inj.mp hd]
    exact isBlank_of_isCapital hc
  have hstart := reads_many hindent hfirst none []
  have hletter := hstart.seq (reads_named (w := [c]) (@reads_one isCapital c hc _ _ []) rfl "letter")
  have hpoint := hletter.seq (@reads_one (· == '.') '.' rfl _ (gap ++ rest) _)
  have hpassed := hpoint.seq (reads_many hgap htrimmed.first _ _)
  have hall := hpassed.seq (reads_restOfLine hne hrest htrimmed.last "rest" _ _)
  rw [← hline] at hall
  exact match?_of_reads hall

theorem normalSection_stands {rest : List Char} (h : Stands s (c :: '.' :: rest))
    (hc : isCapital c) (hrest : rest ≠ []) : normalSection s
      = ofList [c] ++ ". " ++ sectionText (collapse (ofList rest)) := by
  obtain ⟨w, hs, hw⟩ := h.indent
  have htail : IsTail rest := IsTail.of_append (u := [c, '.']) h.toIsTail
  obtain ⟨gap, title, rfl, hgap, hne, htrimmed, hcollapse⟩ := htail.exists_trimmed hrest
  have hmatch := sectionLine_match? hs hw hc hgap hne htrimmed htail.of_append.onLine
  have hgroup : Match.group ⟨s.toList, [], [("rest", title), ("letter", [c])]⟩ "rest"
      = ofList title := rfl
  have hletter : Match.group ⟨s.toList, [], [("rest", title), ("letter", [c])]⟩ "letter"
      = ofList [c] := rfl
  rw [normalSection, hmatch, ← hcollapse, sectionText]
  dsimp only
  rw [hgroup, hletter]
  cases partition (collapse (ofList title)) ":" with
  | mk key value =>
    cases value with
    | none => rfl
    | some value => simp only [String.append_assoc]

theorem squeeze_eq_self (h : (squeeze cs).all (!isSpacing ·)) : squeeze cs = cs := by
  induction cs with
  | nil => rfl
  | cons c cs ih =>
    rw [squeeze, squeezeFrom] at h ⊢
    split at h
    · cases h
    · rename_i hc
      rw [if_neg hc]
      exact congrArg (c :: ·) (ih (Bool.and_eq_true_iff.mp h).2)

theorem isFlow_iff {rest : List Char} (h : IsTail rest) : IsFlow (c :: '.' :: rest) ↔
      isLetterLike c ∧ Spells "flow" (collapse (ofList rest)).toList := by
  have hplain : ∀ {u : List Char}, Spells "flow" u → ∀ d ∈ u, isBlank d = false := fun hu d hd =>
    (of_isLetterLike (hu.letters (by decide) d hd)).1
  constructor
  · rintro ⟨_, w, u, hcs, hc, hw, hu⟩
    cases hcs
    have htrimmed : Trimmed isBlank (ofList u).toList := by
      rw [toList_ofList]
      exact ⟨fun d hd => hplain hu d (mem_of_head? hd),
        fun d hd => hplain hu d (mem_of_getLast? hd)⟩
    refine ⟨hc, ?_⟩
    rw [toList_collapse, @strip_of_blanks _ w u [] (by simp) hw (forall_mem_nil _),
      strip_of_trimmed htrimmed, toList_ofList,
      squeeze_of_plain fun d hd => isSpacing_of_not_isBlank (hplain hu d hd)]
    exact hu
  · rintro ⟨hc, hflow⟩
    have hne : rest ≠ [] := by
      rintro rfl
      exact hflow.ne_nil (by decide) rfl
    obtain ⟨w, u, rfl, hw, _, htrimmed, hcollapse⟩ := h.exists_trimmed hne
    rw [← hcollapse, toList_collapse, strip_of_trimmed (by rwa [toList_ofList]),
      toList_ofList] at hflow
    have hsame : squeeze u = u := squeeze_eq_self (all_eq_true.mpr fun d hd => by
      simp [isSpacing_of_not_isBlank (hplain hflow d hd)])
    exact ⟨c, w, u, rfl, hc, hw, hsame ▸ hflow⟩

theorem exists_normalSection (hline : IsOneLine line) (hflow : opensSetFlow line = false)
    (hset : opensSet line) : ∃ c rest, isCapital c ∧ rest ≠ [] ∧ IsTail rest ∧
      ¬IsFlow (c :: '.' :: rest) ∧ normalSection (stripEnd line)
        = ofList [c] ++ ". " ++ sectionText (collapse (ofList rest)) := by
  have hstands := stands_stripEnd hline.onLine
  obtain ⟨c, rest, hcs, hc, hrest⟩ :=
    (sectionLine_fits_iff hstands).mp (sectionLine_fits hflow hset)
  rw [opensSetFlow, ← Bool.not_eq_true, flowLine_fits_iff hstands, hcs] at hflow
  rw [hcs] at hstands
  exact ⟨c, rest, hc, hrest, IsTail.of_append (u := [c, '.']) hstands.toIsTail, hflow,
    normalSection_stands hstands hc hrest⟩

theorem normalSection_ne (hline : IsOneLine line) (hflow : opensSetFlow line = false)
    (hset : opensSet line) : normalSection (stripEnd line) ≠ "D. Flow" := by
  obtain ⟨c, rest, _, _, htail, hother, heq⟩ := exists_normalSection hline hflow hset
  rw [heq]
  intro hsame
  have hchars : c = 'D' ∧ (sectionText (collapse (ofList rest))).toList = "Flow".toList := by
    simpa using congrArg String.toList hsame
  obtain ⟨rfl, htitle⟩ := hchars
  refine hother ((isFlow_iff htail).mpr ⟨by decide, ?_⟩)
  by_cases hcolon : ':' ∈ (collapse (ofList rest)).toList
  · -- a title with a colon is set with one
    obtain ⟨u, v, hcut, hu⟩ := eq_append_cons_of_mem hcolon
    have hmem : ':' ∈ "Flow".toList := by
      rw [← htitle, sectionText_of_colon hcut hu]
      simp
    exact absurd hmem (by decide)
  · rw [sectionText_of_no_colon hcolon] at htitle
    rw [htitle, Spells]
    decide

theorem head?_normalSection (hline : IsOneLine line) (hflow : opensSetFlow line = false)
    (hset : opensSet line) :
    ∃ c, (normalSection (stripEnd line)).toList.head? = some c ∧ isBlank c = false := by
  obtain ⟨c, _, hc, _, _, _, heq⟩ := exists_normalSection hline hflow hset
  refine ⟨c, ?_, isBlank_of_isCapital hc⟩
  rw [heq]
  simp

/-! ### A heading without a value -/

theorem groups_of_no_colon {here next : Place} {gs gs' : Groups}
    (h : (optional (chr ':' ++ gap ++ named "value" (many onLine))).Fits here gs next gs')
    (hcolon : ':' ∉ here.rest) : gs' = gs := by
  rcases h with ⟨_, _, ⟨_, _, ⟨c, hc, hrest, _⟩, _⟩, _⟩ | ⟨_, rfl⟩
  · rw [hrest, eq_of_beq hc] at hcolon
    exact absurd mem_cons_self hcolon
  · rfl

theorem value_of_no_colon (h : ':' ∉ line.toList) {sec : Section} {value : String}
    (hsection : sectionOf? line = some (sec, value)) : value = "" := by
  have hopened : ∀ (m : Match) {text}, m.groups = [("name", text)] → opened? m = some (sec, value) →
      value = "" := by
    intro m text hgroups hm
    obtain ⟨_, _, heq⟩ := Option.map_eq_some_iff.mp hm
    rw [← (Prod.mk.inj heq).2, Match.group, Match.group?, hgroups]
    rfl
  unfold sectionOf? at hsection
  split at hsection
  · rename_i found hfound
    obtain ⟨m, hm, hm'⟩ := Option.bind_eq_some_iff.mp hfound
    rw [hsection] at hm'
    obtain ⟨_, _, _, ⟨_, _, ⟨mid, gm, hname, hvalue⟩, ⟨_, _, _, _, rfl⟩⟩, _, _, hgroups⟩ :=
      fits_of_match? hm
    have hmid := (mem_of_fits rfl hname).1
    obtain ⟨_, _, hbefore, ⟨_, ⟨_, _, ⟨_, _, _, _, rfl⟩, ⟨_, _, _, _, rfl⟩⟩, rfl⟩⟩ := hname
    rw [groups_of_no_colon hvalue (fun hc => h (hmid _ hc)), groups_of_fits rfl hbefore] at hgroups
    exact hopened m hgroups hm'
  · split at hsection
    · rename_i bulletMatch hbullet
      split at hsection
      · obtain ⟨m, hm, hm'⟩ := Option.bind_eq_some_iff.mp hsection
        obtain ⟨_, _, _, ⟨mid, gm, hname, hvalue⟩, _, _, hgroups⟩ := fits_of_match? hm
        have hmid := (mem_of_fits rfl hname).1
        obtain ⟨_, _, hbefore, ⟨_, ⟨_, _, ⟨_, _, _, _, rfl⟩, ⟨_, _, _, _, rfl⟩⟩, rfl⟩⟩ := hname
        rw [groups_of_no_colon hvalue
          (fun hc => h (mem_of_group rfl hbullet "rest" _ (hmid _ hc))),
          groups_of_fits rfl hbefore] at hgroups
        exact hopened m hgroups hm'
      · exact absurd hsection.symm (Option.some_ne_none _)
    · exact absurd hsection.symm (Option.some_ne_none _)

theorem colon_not_mem_of_flowLine (hline : IsOneLine line) (h : opensSetFlow line) :
    ':' ∉ line.toList := by
  obtain ⟨c, w, u, hstrip, hc, hw, hu⟩ := (flowLine_fits_iff (stands_stripEnd hline.onLine)).mp h
  obtain ⟨after, hafter, hchars⟩ := exists_eq_strip line
  have hblank : ∀ {w : List Char}, Blanks w → ':' ∉ w := fun hw hmem =>
    absurd (hw _ hmem) (by decide)
  have hletter : ∀ {w : List Char}, (∀ d ∈ w, isLetterLike d) → ':' ∉ w := fun hw hmem =>
    absurd (hw _ hmem) (by decide)
  rw [hchars, hstrip]
  simp only [mem_append, mem_cons, not_or]
  refine ⟨hblank fun d hd => mem_takeWhile_imp hd, ⟨?_, by decide, hblank hw,
    hletter (hu.letters (by decide))⟩, hblank hafter⟩
  rintro rfl
  exact absurd hc (by decide)

/-! ### The lines of the flow -/

/-- The part that the line after these stands in. -/
def partAfter (part : Part) (ls : List String) : Part :=
  ls.foldl (fun part line => (normalLine part line).2) part

theorem normalLinesFrom_cons (part : Part) (line : String) (ls : List String) :
    normalLinesFrom part (line :: ls)
      = (normalLine part line).1 ++ normalLinesFrom (normalLine part line).2 ls := by
  rw [normalLinesFrom]

theorem partAfter_cons (part : Part) (line : String) (ls : List String) :
    partAfter part (line :: ls) = partAfter (normalLine part line).2 ls := by
  rw [partAfter, foldl_cons, partAfter]

theorem normalLinesFrom_append (part : Part) (ls more : List String) :
    normalLinesFrom part (ls ++ more)
      = normalLinesFrom part ls ++ normalLinesFrom (partAfter part ls) more := by
  induction ls generalizing part with
  | nil => rfl
  | cons line ls ih =>
    rw [cons_append, normalLinesFrom_cons, normalLinesFrom_cons, partAfter_cons, ih, append_assoc]

/-- A line of the flow, once it is set: it is indented, or empty. -/
def isInner (s : String) : Bool := s.isEmpty || s.toList.head? == some ' '

theorem isInner_append {indent : String} (h : indent.toList.head? = some ' ') (s : String) :
    isInner (indent ++ s) := by
  rw [isInner, toList_append, head?_append, h, Bool.or_eq_true]
  exact .inr rfl

theorem isInner_of_head? {s : String} (h : s.toList.head? = some c)
    (hc : isBlank c = false) : isInner s = false := by
  rw [isInner, h, Bool.or_eq_false_iff]
  refine ⟨?_, beq_eq_false_iff_ne.mpr ?_⟩
  · rw [← Bool.not_eq_true, String.isEmpty_iff]
    rintro rfl
    cases h
  · intro hspace
    rw [Option.some_inj.mp hspace] at hc
    exact absurd hc (by decide)

theorem isInner_normalBullet (number rest : String) :
    (∀ s ∈ (normalBullet number rest).1, isInner s) ∧
      (normalBullet number rest).2 ≠ .outside := by
  have hbullet : ∀ s, isInner (stepIndent ++ number ++ ". " ++ s) := by
    intro s
    rw [String.append_assoc, String.append_assoc]
    exact isInner_append rfl _
  have hheader : ∀ s, isInner (headerIndent ++ s) := isInner_append rfl
  rw [normalBullet]
  split
  · exact ⟨forall_mem_cons.mpr ⟨hbullet _, forall_mem_singleton.mpr (hheader _)⟩, Part.noConfusion⟩
  · split
    · exact ⟨forall_mem_cons.mpr ⟨hbullet _, forall_mem_singleton.mpr (hheader _)⟩, Part.noConfusion⟩
    · exact ⟨forall_mem_singleton.mpr (hbullet _), Part.noConfusion⟩

theorem isInner_normalFlowLine (hpart : part ≠ .outside) (line : String) :
    (∀ s ∈ (normalFlowLine part line).1, isInner s) ∧
      (normalFlowLine part line).2 ≠ .outside := by
  have hindented : ∀ indent : String, indent.toList.head? = some ' ' → ∀ text,
      ∀ s ∈ [indent ++ text], isInner s := fun indent hindent text =>
    forall_mem_singleton.mpr (isInner_append hindent text)
  unfold normalFlowLine
  cases bulletLine.match? line with
  | some m => exact isInner_normalBullet _ _
  | none =>
    dsimp only
    split
    · exact ⟨hindented headerIndent rfl _, nofun⟩
    · split
      · exact ⟨hindented headerIndent rfl _, nofun⟩
      · split
        · exact ⟨forall_mem_singleton.mpr rfl, hpart⟩
        · cases part with
          | outside => exact absurd rfl hpart
          | flow => exact ⟨hindented stepIndent rfl _, nofun⟩
          | body => exact ⟨hindented bodyIndent rfl _, nofun⟩

theorem isInner_normalLinesFrom (hpart : part ≠ .outside)
    (h : ∀ line ∈ body, opensSet line = false) :
    (∀ s ∈ normalLinesFrom part body, isInner s) ∧ partAfter part body ≠ .outside := by
  induction body generalizing part with
  | nil => exact ⟨forall_mem_nil _, hpart⟩
  | cons line body ih =>
    obtain ⟨hline, hbody⟩ := forall_mem_cons.mp h
    have hinside := normalLine_inside hline hpart
    obtain ⟨hout, hnext⟩ := isInner_normalFlowLine hpart (stripEnd line)
    rw [← hinside] at hout hnext
    obtain ⟨hrest, hlast⟩ := ih hnext hbody
    rw [normalLinesFrom_cons, partAfter_cons]
    exact ⟨fun s hs => (mem_append.mp hs).elim (hout s) (hrest s), hlast⟩

theorem map_strip_normalLinesFrom (hpart : part ≠ .outside)
    (h : ∀ line ∈ body, opensSet line = false) (heven : ∀ line ∈ body, IsEven line)
    (hline : ∀ line ∈ body, ∀ c ∈ line.toList, onLine c) :
    (normalLinesFrom part body).map strip = body.map setText := by
  induction body generalizing part with
  | nil => rw [normalLinesFrom, map_nil, map_nil]
  | cons line body ih =>
    obtain ⟨hset, hbody⟩ := forall_mem_cons.mp h
    obtain ⟨hfirst, heven⟩ := forall_mem_cons.mp heven
    obtain ⟨hchars, hline⟩ := forall_mem_cons.mp hline
    obtain ⟨hmap, _, _⟩ := hfirst.textTokens_setText hset hchars
    have hinside := normalLine_inside hset hpart
    have hnext := (isInner_normalFlowLine hpart (stripEnd line)).2
    -- The part a line stands in decides its indentation only.
    have hout : (normalLine part line).1.map strip = [setText line] := by
      rw [hinside, normalFlowLine_part, ← @normalLine_inside line hset .flow nofun]
      exact hmap
    rw [← hinside] at hnext
    rw [normalLinesFrom_cons, map_append, hout, ih hnext hbody heven hline, map_cons,
      singleton_append]

/-! ### The lines after the flow -/

theorem flow_not_mem_outside (h : ∀ line ∈ ls, opensSetFlow line = false)
    (hone : ∀ line ∈ ls, IsOneLine line) : "D. Flow" ∉ normalLinesFrom .outside ls := by
  induction ls with
  | nil => exact not_mem_nil
  | cons line ls ih =>
    obtain ⟨hline, hls⟩ := forall_mem_cons.mp h
    obtain ⟨hchars, hone⟩ := forall_mem_cons.mp hone
    have hfirst : "D. Flow" ∉ (normalLine .outside line).1 ∧
        (normalLine .outside line).2 = .outside := by
      cases hset : opensSet line with
      | true =>
        rw [normalLine_section hline hset, mem_singleton]
        exact ⟨(normalSection_ne hchars hline hset).symm, rfl⟩
      | false =>
        rw [normalLine_outside hset, mem_singleton]
        refine ⟨fun heq => ?_, rfl⟩
        rw [opensSetFlow, ← heq] at hline
        exact absurd hline (by decide +kernel)
    rw [normalLinesFrom_cons, mem_append, not_or, hfirst.2]
    exact ⟨hfirst.1, ih hls hone⟩

variable {after : List String}

theorem normalLinesFrom_after (part : Part)
    (hends : ∀ line, after.head? = some line → opensSet line)
    (hlast : ∀ line ∈ after, opensSetFlow line = false) (hone : ∀ line ∈ after, IsOneLine line) :
    "D. Flow" ∉ normalLinesFrom part after ∧
      ∀ s, (normalLinesFrom part after).head? = some s → isInner s = false := by
  cases after with
  | nil => exact ⟨not_mem_nil, nofun⟩
  | cons line after =>
    obtain ⟨hline, hafter⟩ := forall_mem_cons.mp hlast
    obtain ⟨hchars, hone⟩ := forall_mem_cons.mp hone
    have hset := hends line rfl
    rw [normalLinesFrom_cons, normalLine_section hline hset]
    refine ⟨fun hmem => ?_, fun s hs => ?_⟩
    · rcases mem_cons.mp hmem with heq | hmem
      · exact normalSection_ne hchars hline hset heq.symm
      · exact flow_not_mem_outside hafter hone hmem
    · obtain ⟨c, hhead, hc⟩ := head?_normalSection hchars hline hset
      rw [← Option.some_inj.mp hs]
      exact isInner_of_head? hhead hc

/-! ### The lines of a normal form -/

variable {α : Type}

theorem append_cons_inj_last {d : α} {x y u v : List α} (hy : d ∉ y) (hv : d ∉ v)
    (h : x ++ d :: y = u ++ d :: v) : y = v := by
  have hreverse : y.reverse ++ d :: x.reverse = v.reverse ++ d :: u.reverse := by
    simpa using congrArg reverse h
  have hsame := append_cons_inj (fun hd => hy (mem_reverse.mp hd))
    (fun hd => hv (mem_reverse.mp hd)) hreverse
  exact reverse_injective hsame.1

theorem lines_of_join {ls₁ ls₂ : List String} (h₁ : ∀ s ∈ ls₁, IsOneLine s)
    (h₂ : ∀ s ∈ ls₂, IsOneLine s)
    (h : String.join (ls₁.map (· ++ "\n")) = String.join (ls₂.map (· ++ "\n"))) : ls₁ = ls₂ := by
  have hchars := congrArg String.toList h
  rw [String.toList_join, String.toList_join, flatMap_map, flatMap_map] at hchars
  clear h
  induction ls₁ generalizing ls₂ with
  | nil =>
    cases ls₂ with
    | nil => rfl
    | cons s ls₂ => simp at hchars
  | cons s ls₁ ih =>
    cases ls₂ with
    | nil => simp at hchars
    | cons t ls₂ =>
      obtain ⟨hs, h₁⟩ := forall_mem_cons.mp h₁
      obtain ⟨ht, h₂⟩ := forall_mem_cons.mp h₂
      rw [flatMap_cons, flatMap_cons, toList_append, toList_append,
        append_assoc, append_assoc] at hchars
      obtain ⟨hst, hrest⟩ := append_cons_inj hs.lineFeed_not_mem ht.lineFeed_not_mem hchars
      rw [String.toList_inj.mp hst, ih h₁ h₂ hrest]

theorem isOneLine_normalLinesFrom (part : Part) (h : ∀ line ∈ ls, IsOneLine line) :
    ∀ s ∈ normalLinesFrom part ls, IsOneLine s := by
  induction ls generalizing part with
  | nil =>
    rw [normalLinesFrom]
    exact forall_mem_nil _
  | cons line ls ih =>
    obtain ⟨hline, hls⟩ := forall_mem_cons.mp h
    rw [normalLinesFrom_cons]
    exact fun s hs => (mem_append.mp hs).elim (isOneLine_normalLine part hline s)
      (ih _ hls s)

theorem normalLines_eq (text : String) :
    normalLines text = (normalLinesFrom .outside (lines text)).rdropWhile String.isEmpty :=
  rfl

theorem isOneLine_normalLines (text : String) : ∀ s ∈ normalLines text, IsOneLine s := by
  intro s hs
  rw [normalLines_eq] at hs
  exact isOneLine_normalLinesFrom .outside (fun _ hline => isLineEnd_of_mem_lines hline) s
    ((List.rdropWhile_prefix String.isEmpty _).subset hs)

/-! ### The texts of the flow -/

def lineTexts (ls : List String) : List String := (ls.map strip).filter (!·.isEmpty)

theorem rdropWhile_append_cons {p : α → Bool} {a : α} (ha : p a = false) (l m : List α) :
    (l ++ a :: m).rdropWhile p = l ++ a :: m.rdropWhile p := by
  induction m using reverseRecOn with
  | nil =>
    rw [rdropWhile_concat_neg _ _ _ (by simp [ha])]
    rfl
  | append_singleton m b ih =>
    rw [← cons_append, ← append_assoc]
    cases hb : p b with
    | true => rw [rdropWhile_concat_pos _ _ _ hb, rdropWhile_concat_pos _ _ _ hb, ih]
    | false =>
      have hb : ¬p b := by simp [hb]
      rw [rdropWhile_concat_neg _ _ _ hb, rdropWhile_concat_neg _ _ _ hb, append_assoc, cons_append]

theorem lineTexts_append (ls more : List String) :
    lineTexts (ls ++ more) = lineTexts ls ++ lineTexts more := by
  rw [lineTexts, map_append, filter_append, lineTexts, lineTexts]

theorem lineTexts_rdropWhile (ls : List String) :
    lineTexts (ls.rdropWhile String.isEmpty) = lineTexts ls := by
  induction ls using reverseRecOn with
  | nil => rfl
  | append_singleton ls s ih =>
    cases hs : s.isEmpty with
    | false => rw [rdropWhile_concat_neg _ _ _ (by simp [hs])]
    | true =>
      have hempty : lineTexts [""] = [] := by decide +kernel
      rw [rdropWhile_concat_pos _ _ _ hs, ih, String.isEmpty_iff.mp hs, lineTexts_append,
        hempty, append_nil]

theorem lineTexts_takeWhile (hbody : ∀ s ∈ body, isInner s)
    (hafter : ∀ s, after.head? = some s → isInner s = false) :
    lineTexts (((body ++ after).rdropWhile String.isEmpty).takeWhile isInner) = lineTexts body := by
  cases after with
  | nil =>
    rw [append_nil, takeWhile_eq_self_iff.mpr fun s hs =>
      hbody s ((List.rdropWhile_prefix String.isEmpty _).subset hs), lineTexts_rdropWhile]
  | cons s after =>
    have hs := hafter s rfl
    rw [rdropWhile_append_cons (Bool.or_eq_false_iff.mp hs).1, takeWhile_append_of_pos hbody,
      takeWhile_cons_of_neg (by simp [hs]), append_nil]

theorem exists_normalLines {text heading : String} (h : setFlow text = some (heading, body)) :
    ∃ before after, normalLines text = before ++ "D. Flow" :: after ∧ "D. Flow" ∉ after ∧
      lineTexts (after.takeWhile isInner) = lineTexts (normalLinesFrom .flow body) := by
  obtain ⟨before, after, hstands⟩ := exists_standsIn h
  have hflow : Part.flow ≠ .outside := nofun
  obtain ⟨hinner, _⟩ := isInner_normalLinesFrom hflow hstands.inside
  obtain ⟨habsent, hnext⟩ := normalLinesFrom_after (partAfter .flow body) hstands.ends
    (fun line hline => hstands.last line (mem_append_right body hline)) fun line hline => by
      have hmem : line ∈ lines text := by
        rw [hstands.lines_eq]
        simp [hline]
      exact isLineEnd_of_mem_lines hmem
  have hbody : "D. Flow" ∉ normalLinesFrom .flow body := fun hmem =>
    absurd (hinner _ hmem) (by decide)
  refine ⟨normalLinesFrom .outside before, (normalLinesFrom .flow body ++
    normalLinesFrom (partAfter .flow body) after).rdropWhile String.isEmpty, ?_, fun hmem => ?_,
    lineTexts_takeWhile hinner hnext⟩
  · rw [normalLines_eq, hstands.lines_eq, normalLinesFrom_append, normalLinesFrom_cons,
      normalLine_flow hstands.heads, normalLinesFrom_append, singleton_append,
      rdropWhile_append_cons (by decide)]
  · have hmem := (List.rdropWhile_prefix String.isEmpty _).subset hmem
    exact (mem_append.mp hmem).elim hbody habsent

/-! ### Outlines with sections -/

variable {p : Pattern}

theorem anyLine_of_fits (h : p.fits (ofList cs)) : anyLine p true cs := by
  cases cs with
  | nil => exact h
  | cons c cs => rw [anyLine, h]; rfl

theorem anyLine_append (h : anyLine p true cs) (u : List Char)
    (lineStart : Bool) : anyLine p lineStart (u ++ '\n' :: cs) := by
  induction u generalizing lineStart with
  | nil =>
    rw [nil_append, anyLine, Bool.or_eq_true]
    exact .inr h
  | cons c u ih =>
    rw [cons_append, anyLine, Bool.or_eq_true]
    exact .inr (ih _)

theorem hasSections_of_flow (h : "D. Flow" ∈ ls) :
    hasSections (String.join (ls.map (· ++ "\n"))) := by
  rw [hasSections, String.toList_join, flatMap_map]
  induction ls with
  | nil => cases h
  | cons s ls ih =>
    rw [flatMap_cons, toList_append, append_assoc]
    rcases mem_cons.mp h with rfl | h
    · refine anyLine_of_fits ?_
      rw [fits, match?, toList_ofList]
      rfl
    · exact anyLine_append (ih h) s.toList true

theorem normalOutline_eq_or_eq {t₁ t₂ : String} (hash : hashedText t₁ = hashedText t₂)
    (h₁ : "D. Flow" ∈ normalLines t₁) (h₂ : "D. Flow" ∈ normalLines t₂) :
    normalOutline t₁ = normalOutline t₂ ∨ t₁ = t₂ := by
  rw [hashedText, hashedText] at hash
  split at hash
  · split at hash
    · exact .inl hash
    · rename_i hplain
      rw [← hash] at hplain
      exact absurd (hasSections_of_flow h₁) hplain
  · rename_i hplain
    split at hash
    · rw [hash] at hplain
      exact absurd (hasSections_of_flow h₂) hplain
    · exact .inr hash

/-! ### Outlines with the same normal form -/

theorem isBlankLine_eq (line : String) : isBlankLine line = (strip line).isEmpty := by
  rw [Bool.eq_iff_iff, String.isEmpty_iff]
  refine ⟨strip_of_isBlankLine, fun h => ?_⟩
  obtain ⟨after, hafter, heq⟩ := exists_eq_strip line
  rw [h] at heq
  rw [isBlankLine, heq, all_eq_true]
  exact fun c hc => (mem_append.mp hc).elim mem_takeWhile_imp (hafter c)

/-- An outline whose flow loses nothing when it is set: the same lines are the flow
    before and after, and each of them is even. -/
def IsEvenlySet (text : String) : Prop :=
  ∃ heading body, readFlow text = some (heading, body) ∧ setFlow text = some (heading, body) ∧
    ∀ line ∈ body, IsEven line

/-- The nestings of the lines of the flow, without the blank ones. -/
def flowNestings (text : String) : Option (List Nat) :=
  (readFlow text).map fun found => (found.2.filter (!isBlankLine ·)).map lineNesting

def setTokens (texts : List (String × Nat)) : List Token :=
  texts.flatMap fun text => textTokens text.1 text.2

theorem textTokens_empty (nesting : Nat) : textTokens "" nesting = [] := by
  have hcut : cutTag "".toList = none := by decide
  rw [textTokens, hcut]
  exact if_pos (by decide)

section Body

variable {body : List String} (hset : ∀ line ∈ body, opensSet line = false)
  (heven : ∀ line ∈ body, IsEven line) (hline : ∀ line ∈ body, ∀ c ∈ line.toList, onLine c)

include hset heven hline

theorem isBlankLine_iff_setText : ∀ line ∈ body, isBlankLine line = (setText line).isEmpty := by
  intro line hmem
  obtain ⟨_, hempty, _⟩ := (heven line hmem).textTokens_setText (hset line hmem) (hline line hmem)
  rw [isBlankLine_eq, Bool.eq_iff_iff, String.isEmpty_iff, String.isEmpty_iff]
  exact hempty.symm

theorem lineTexts_body :
    lineTexts (normalLinesFrom .flow body) = (body.filter (!isBlankLine ·)).map setText := by
  rw [lineTexts, @map_strip_normalLinesFrom .flow body nofun hset heven hline, filter_map]
  refine congrArg (map setText) (filter_congr fun line hmem => ?_)
  rw [isBlankLine_iff_setText hset heven hline line hmem, Function.comp_apply]

theorem tokensOfLines_body (hread : ∀ line ∈ body, opensSection line = false) :
    tokensOfLines (some .flow) body = setTokens ((body.filter (!isBlankLine ·)).map fun line =>
        (setText line, lineNesting line)) := by
  induction body with
  | nil => rfl
  | cons line body ih =>
    obtain ⟨hread', hread⟩ := forall_mem_cons.mp hread
    obtain ⟨hset', hset⟩ := forall_mem_cons.mp hset
    obtain ⟨heven', heven⟩ := forall_mem_cons.mp heven
    obtain ⟨hline', hline⟩ := forall_mem_cons.mp hline
    obtain ⟨_, hempty, htokens⟩ := heven'.textTokens_setText hset' hline'
    rw [tokensOfLines, lineTokens_eq hline' (sectionOf?_of_opensSection hread')]
    dsimp only
    rw [ih hset heven hline hread, ← htokens]
    cases hblank : isBlankLine line with
    | true =>
      rw [filter_cons_of_neg (by rw [hblank]; decide),
        hempty.mpr (strip_of_isBlankLine hblank), textTokens_empty, nil_append]
    | false =>
      rw [filter_cons_of_pos (by rw [hblank]; rfl), map_cons, setTokens, setTokens, flatMap_cons]

end Body

theorem exists_of_opensFlow (h : opensFlow line) :
    ∃ value, sectionOf? line = some (.flow, value) := by
  rw [opensFlow] at h
  split at h
  · rename_i sec value hsec
    rw [eq_of_beq h] at hsec
    exact ⟨value, hsec⟩
  · cases h

theorem IsEvenlySet.exists_readsAs {text : String} (h : IsEvenlySet text) :
    ∃ before after nestings, normalLines text = before ++ "D. Flow" :: after ∧
      "D. Flow" ∉ after ∧ flowNestings text = some nestings ∧
      ReadsAs text (setTokens ((lineTexts (after.takeWhile isInner)).zip nestings)) := by
  obtain ⟨heading, body, hread, hset, heven⟩ := h
  obtain ⟨before, after, hlines, habsent, htexts⟩ := exists_normalLines hset
  obtain ⟨_, _, hreads⟩ := exists_standsIn hread
  obtain ⟨_, _, hsets⟩ := exists_standsIn hset
  obtain ⟨value, hvalue⟩ := exists_of_opensFlow hreads.heads
  have hheading : heading ∈ lines text := by
    rw [hreads.lines_eq]
    simp
  have hempty := value_of_no_colon
    (colon_not_mem_of_flowLine (isLineEnd_of_mem_lines hheading) hsets.heads) hvalue
  have hline : ∀ line ∈ body, ∀ c ∈ line.toList, onLine c := by
    intro line hmem
    refine @onLine_of_mem_lines line text ?_
    rw [hreads.lines_eq]
    simp [hmem]
  refine ⟨before, after, (body.filter (!isBlankLine ·)).map lineNesting, hlines, habsent, ?_,
    heading, body, value, hread, hvalue, ?_, ?_⟩
  · rw [flowNestings, hread, Option.map_some]
  · rw [hempty, strip_of_isBlankLine (by decide)]
  · rw [htexts, lineTexts_body hsets.inside heven hline, zip_map',
      tokensOfLines_body hsets.inside heven hline hreads.inside]

theorem flow_eq_of_hashedText_eq {t₁ t₂ : String} {m₁ m₂ : Value} (h₁ : Module.ofText t₁ = .ok m₁)
    (h₂ : Module.ofText t₂ = .ok m₂) (hash : hashedText t₁ = hashedText t₂)
    (even₁ : IsEvenlySet t₁) (even₂ : IsEvenlySet t₂) (hnest : flowNestings t₁ = flowNestings t₂) :
    m₁.field "flow" = m₂.field "flow" := by
  obtain ⟨before₁, after₁, nestings₁, hlines₁, habsent₁, hnest₁, hreads₁⟩ := even₁.exists_readsAs
  obtain ⟨before₂, after₂, nestings₂, hlines₂, habsent₂, hnest₂, hreads₂⟩ := even₂.exists_readsAs
  rcases normalOutline_eq_or_eq hash (by rw [hlines₁]; simp) (by rw [hlines₂]; simp) with hset | rfl
  · have hsame : normalLines t₁ = normalLines t₂ :=
      lines_of_join (isOneLine_normalLines t₁) (isOneLine_normalLines t₂) hset
    rw [hlines₁, hlines₂] at hsame
    obtain rfl := append_cons_inj_last habsent₁ habsent₂ hsame
    rw [hnest₁, hnest₂] at hnest
    rw [← Option.some_inj.mp hnest] at hreads₂
    exact flow_eq_of_readsAs hreads₁ hreads₂ h₁ h₂
  · rw [Except.ok.inj (h₁.symm.trans h₂)]

def plainOutline : String :=
  "I. Module: T\nD. Flow\n  1. Make x = \"a b\"\n  2. Return x\n\nF. Version: 2.1\n"

/-- The same outline with other blanks and other capitals. -/
def spacedOutline : String :=
  "I. Module:   T\nd.flow\n   1.   MAKE \tx = \"a b\"  \n   2.return   x\n  \nF.   Version:  2.1\n"

theorem isEvenlySet_plainOutline : IsEvenlySet plainOutline := by
  refine ⟨"D. Flow", ["  1. Make x = \"a b\"", "  2. Return x", ""], by decide +kernel,
    by decide +kernel, fun line hline => .inl ?_⟩
  revert line
  decide +kernel

theorem isTag_one : isTag ['1'] := by decide

theorem isTag_two : isTag ['2'] := by decide

def loudMake : Wording where
  tag := ['1']
  gap := "   ".toList
  verb := "MAKE".toList
  pause := " \t".toList
  text := "x = \"a b\"".toList
  isTag := isTag_one
  isGap := all_eq_true.mp (by decide)
  isVerb := ⟨all_eq_true.mp (by decide), by decide +kernel⟩
  isPause := all_eq_true.mp (by decide)
  isPaused := by decide
  isTrimmed := trimmed_iff.mpr (by decide)
  isSqueezed := by decide

def quietReturn : Wording where
  tag := ['2']
  gap := []
  verb := "return".toList
  pause := "   ".toList
  text := ['x']
  isTag := isTag_two
  isGap := all_eq_true.mp (by decide)
  isVerb := ⟨all_eq_true.mp (by decide), by decide +kernel⟩
  isPause := all_eq_true.mp (by decide)
  isPaused := by decide
  isTrimmed := trimmed_iff.mpr (by decide)
  isSqueezed := by decide

theorem isEvenlySet_spacedOutline : IsEvenlySet spacedOutline := by
  refine ⟨"d.flow", ["   1.   MAKE \tx = \"a b\"  ", "   2.return   x", "  "], by decide +kernel,
    by decide +kernel, ?_⟩
  refine forall_mem_cons.mpr ⟨.inr ⟨⟨loudMake, ?_⟩, ?_⟩, forall_mem_cons.mpr
    ⟨.inr ⟨⟨quietReturn, ?_⟩, ?_⟩, forall_mem_singleton.mpr (.inl ?_)⟩⟩
  all_goals decide +kernel

theorem isOk_plainOutline : (Module.ofText plainOutline).isOk := by
  decide +kernel

theorem isOk_spacedOutline : (Module.ofText spacedOutline).isOk := by
  decide +kernel

theorem hashedText_plainOutline : hashedText plainOutline = plainOutline := by
  decide +kernel

theorem hashedText_spacedOutline : hashedText spacedOutline = plainOutline := by
  decide +kernel

/-- The plain outline and the spaced one have the same flow. -/
theorem flow_eq_of_hashedText_eq_spaced :
    plainOutline ≠ spacedOutline ∧ hashedText plainOutline = hashedText spacedOutline ∧
      IsEvenlySet plainOutline ∧ IsEvenlySet spacedOutline ∧
      flowNestings plainOutline = flowNestings spacedOutline ∧
      ∃ m₁ m₂, Module.ofText plainOutline = .ok m₁ ∧ Module.ofText spacedOutline = .ok m₂ ∧
        m₁.field "flow" = m₂.field "flow" := by
  have hash := hashedText_plainOutline.trans hashedText_spacedOutline.symm
  have hnest : flowNestings plainOutline = flowNestings spacedOutline := by decide +kernel
  have h₁ := eq_ok_orNull isOk_plainOutline
  have h₂ := eq_ok_orNull isOk_spacedOutline
  exact ⟨by decide +kernel, hash, isEvenlySet_plainOutline, isEvenlySet_spacedOutline, hnest, _, _,
    h₁, h₂, flow_eq_of_hashedText_eq h₁ h₂ hash isEvenlySet_plainOutline isEvenlySet_spacedOutline
      hnest⟩

end Loom.Outline
