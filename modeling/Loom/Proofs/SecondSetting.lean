import Loom.Proofs.SettledText

/-!
# Setting an Outline Twice

An outline in normal form should be its own normal form. It is not always: a header is
written small and squeezed when it is set, and what stands beside the number of a loop is
set as a header whatever it is. Where the result is no header, the second setting takes it
for a step or for a line of a body, and sets it with another margin.

That is the only way. All other lines that are set are lines of the same kind again, and are
set as themselves, so the normal form of an outline is its own normal form if and only if
each of its headers is still one once it is set.
-/

namespace Loom.Outline

open Loom.Text Loom.Text.Pattern List
open String (ofList ofList_toList toList_append toList_ofList)

variable {line x t : String} {part : Part} {cs number : List Char} {c : Char} {ls : List String}

/-! ### The headers of an outline -/

def isHeaderLine (line : String) : Bool := clauseLine.fits line || loopLine.fits line

def flowHeader? (line : String) : Option String := match bulletLine.match? line with
  | some m => bulletHeader? (collapse (m.group "rest"))
  | none => if isHeaderLine line then some (strip line) else none

def lineHeader? (part : Part) (line : String) : Option String := match part with
  | .outside => none
  | _ => if opensSet line then none else flowHeader? (stripEnd line)

def headers (part : Part) : List String → List String
  | [] => []
  | line :: ls => (lineHeader? part line).toList ++ headers (normalLine part line).2 ls

theorem lineHeader?_inside (h : opensSet line = false) (hpart : part ≠ .outside) :
    lineHeader? part line = flowHeader? (stripEnd line) := by
  have hclosed : ¬opensSet line := by simp [h]
  unfold lineHeader?
  cases part with
  | outside => exact absurd rfl hpart
  | flow | body => exact if_neg hclosed

theorem lineHeader?_opens (h : opensSet line) (part : Part) :
    lineHeader? part line = none := by
  unfold lineHeader?
  rw [h]
  cases part <;> rfl

/-! ### Lines of the flow -/

def marginOf : Part → String
  | .body => bodyIndent
  | _ => stepIndent

/-- What a line of the flow is set as, and with which header, by what it is made of. -/
inductive Sets (part : Part) : List Char → Option String → List String × Part → Prop where
  | step {number rest : List Char} (hnumber : number ≠ []) (hdigits : ∀ c ∈ number, isDigit c)
      (hrest : rest ≠ []) : Sets part (number ++ '.' :: rest)
        (bulletHeader? (collapse (ofList rest)))
        (normalBullet (ofList number) (ofList rest))
  | choose {cs : List Char} (h : Spells "choose" cs) :
      Sets part cs none ([headerIndent ++ "Choose"], .body)
  | header {cs : List Char} (h : IsHeader cs) : Sets part cs (some (ofList cs))
      ([headerIndent ++ normalHeader (ofList cs)], .body)
  | blank : Sets part [] none ([""], part)
  | other {cs : List Char} (hstep : ¬IsStep cs) (hchoose : ¬Spells "choose" cs)
      (hheader : ¬IsHeader cs) (hne : cs ≠ []) :
      Sets part cs none ([marginOf part ++ collapse (ofList cs)], part)

theorem IsHeader.colon_mem (h : IsHeader cs) : ':' ∈ cs := by
  cases h <;> simp

theorem IsHeader.not_choose (h : IsHeader cs) : ¬Spells "choose" cs := by
  intro hchoose
  have hletter := hchoose.letters (by decide) ':' h.colon_mem
  cases hletter

theorem opensSet_iff (hx : IsOneLine x) :
    opensSet x ↔ IsFlow (strip x).toList ∨ IsSection (strip x).toList := by
  rw [opensSet, Bool.or_eq_true, flowLine_fits_iff (stands_stripEnd hx.onLine),
    sectionLine_fits_iff (stands_stripEnd hx.onLine)]

theorem sets_line (hx : IsOneLine x) (hopens : opensSet x = false) (hpart : part ≠ .outside) :
    Sets part (strip x).toList (lineHeader? part x) (normalLine part x) := by
  have hstands := stands_stripEnd hx.onLine
  have hcollapse : collapse (stripEnd x) = collapse (strip x) := by
    rw [collapse_eq, collapse_eq, strip_stripEnd, strip_strip]
  rw [normalLine_inside hopens hpart, lineHeader?_inside hopens hpart]
  by_cases hstep : IsStep (strip x).toList
  · obtain ⟨number, rest, hcs, hnumber, hdigits, hrest⟩ := hstep
    rw [hcs] at hstands ⊢
    obtain ⟨m, hm, _, hgroup⟩ := exists_bulletLine_match? hstands hnumber hdigits hrest
    rw [normalFlowLine_step hstands hnumber hdigits hrest, flowHeader?, hm]
    dsimp only
    rw [hgroup]
    exact .step hnumber hdigits hrest
  have hmatch := bulletLine_match?_eq_none hstands hstep
  rw [flowHeader?, hmatch]
  unfold normalFlowLine
  rw [hmatch]
  rw [isHeaderLine]
  by_cases hchoose : Spells "choose" (strip x).toList
  · rw [if_pos ((chooseLine_fits_iff hstands).mpr hchoose),
      if_neg fun h => ((isHeader_iff hstands).mp h).not_choose hchoose]
    exact .choose hchoose
  rw [if_neg fun h => hchoose ((chooseLine_fits_iff hstands).mp h)]
  by_cases hheader : IsHeader (strip x).toList
  · have hline := (isHeader_iff hstands).mpr hheader
    have hsets := @Sets.header part _ hheader
    rw [ofList_toList] at hsets
    rw [if_pos hline, if_pos hline, normalHeader, hcollapse, strip_stripEnd]
    exact hsets
  have hline := mt (isHeader_iff hstands).mp hheader
  rw [if_neg hline, if_neg hline, isEmpty_stripEnd]
  by_cases hne : (strip x).toList = []
  · rw [hne]
    exact .blank
  · rw [if_neg (by rwa [List.isEmpty_iff]), hcollapse]
    have hsets := @Sets.other part _ hstep hchoose hheader hne
    rw [ofList_toList] at hsets
    cases part with
    | outside => exact absurd rfl hpart
    | flow | body => exact hsets

/-! ### Kinds that exclude each other -/

theorem isLetterLike_of_isCapital (h : isCapital c) : isLetterLike c := by
  have halpha : c.isAlpha := by
    refine Bool.or_eq_true_iff.mpr (.inl ?_)
    simp only [isCapital, Bool.and_eq_true, decide_eq_true_eq] at h
    exact decide_eq_true h
  simp only [isLetterLike, halpha, Bool.true_or]

theorem Spells.exists_two {s : String} {u : List Char} (h : Spells s u)
    (hs : s.toList.all isAsciiLetter) (hlength : 2 ≤ s.toList.length) :
    ∃ a b rest, u = a :: b :: rest ∧ isLetterLike a ∧ isLetterLike b := by
  have hletters := h.letters hs
  rw [List.Forall₂.length_eq h] at hlength
  match u, hlength with
  | a :: b :: rest, _ =>
    exact ⟨a, b, rest, rfl, hletters a (by simp), hletters b (by simp)⟩

theorem IsHeader.exists_two (h : IsHeader cs) :
    ∃ a b rest, cs = a :: b :: rest ∧ startsName a ∧ b ≠ '.' := by
  have hword : ∀ {w : String} {u : List Char}, Spells w u → w.toList.all isAsciiLetter →
      2 ≤ w.toList.length → ∀ v, ∃ a b rest, u ++ v = a :: b :: rest ∧ startsName a ∧
        b ≠ '.' := by
    intro w u hu hw hlength v
    obtain ⟨a, b, rest, rfl, ha, hb⟩ := hu.exists_two hw hlength
    refine ⟨a, b, rest ++ v, rfl, by rw [startsName, ha]; rfl, ?_⟩
    rintro rfl
    cases hb
  cases h with
  | asks ha _ =>
    cases ha with
    | when hu => exact hword hu (by decide) (by decide) _
    | elseIf hu _ _ =>
      rw [append_assoc]
      exact hword hu (by decide) (by decide) _
    | range hu hw _ =>
      obtain ⟨a, name, rfl, ha, hname⟩ := hu
      obtain ⟨b, w, rfl⟩ := exists_cons_of_ne_nil hw.1
      cases name with
      | nil =>
        refine ⟨a, b, _, rfl, ha, ?_⟩
        rintro rfl
        exact absurd (hw.2 _ mem_cons_self) (by decide)
      | cons c name =>
        refine ⟨a, c, _, rfl, ha, ?_⟩
        rintro rfl
        exact absurd (hname _ mem_cons_self) (by decide)
  | otherwise hu _ | «repeat» hu _ => exact hword hu (by decide) (by decide) _

theorem IsHeader.not_step (h : IsHeader cs) : ¬IsStep cs := by
  rintro ⟨number, rest, hcs, hnumber, hdigits, _⟩
  obtain ⟨d, number, rfl⟩ := exists_cons_of_ne_nil hnumber
  obtain ⟨a, b, _, rfl, ha, _⟩ := h.exists_two
  obtain ⟨rfl, _⟩ := cons.inj hcs
  have hdigit := hdigits a mem_cons_self
  rw [isDigit_of_startsName ha] at hdigit
  cases hdigit

theorem IsHeader.not_opens (h : IsHeader cs) : ¬(IsFlow cs ∨ IsSection cs) := by
  obtain ⟨a, b, _, rfl, _, hb⟩ := h.exists_two
  rintro (⟨_, _, _, hcs, _⟩ | ⟨_, _, hcs, _⟩) <;>
    exact hb (cons.inj (cons.inj hcs).2).1

theorem not_opens_of_digit {d : Char} (hd : isDigit d) (cs : List Char) :
    ¬(IsFlow (d :: cs) ∨ IsSection (d :: cs)) := by
  have hletter : isLetterLike d = false := by
    rw [← Bool.not_eq_true]
    intro h
    rw [(of_isLetterLike h).2.2] at hd
    cases hd
  rintro (⟨_, _, _, hcs, hc, _⟩ | ⟨_, _, hcs, hc, _⟩)
  · rw [← (cons.inj hcs).1, hletter] at hc
    cases hc
  · rw [← (cons.inj hcs).1] at hc
    rw [isLetterLike_of_isCapital hc] at hletter
    cases hletter

/-! ### Margins -/

/-- How many blanks a line begins with. -/
def margin (s : String) : Nat := (s.toList.takeWhile isBlank).length

theorem margin_append {indent : String} (h : Blanks indent.toList)
    (ht : ∀ c, t.toList.head? = some c → isBlank c = false) :
    margin (indent ++ t) = indent.toList.length := by
  rw [margin, toList_append, takeWhile_append_of_head h ht]

theorem margin_of_head? {s : String} (h : s.toList.head? = some c) (hc : isBlank c = false) :
    margin s = 0 := by
  obtain ⟨rest, hs⟩ := head?_eq_some_iff.mp h
  rw [margin, hs, takeWhile_cons_of_neg (by simp [hc])]
  rfl

theorem blanks_indents : Blanks stepIndent.toList ∧ Blanks headerIndent.toList ∧
    Blanks bodyIndent.toList := by
  refine ⟨?_, ?_, ?_⟩ <;> exact all_eq_true.mp (by decide)

theorem blanks_marginOf (part : Part) : Blanks (marginOf part).toList := by
  cases part <;> exact all_eq_true.mp (by decide)

theorem exists_normalBullet (hnumber : number ≠ []) (hdigits : ∀ c ∈ number, isDigit c)
    (rest : String) :
    ∃ y ys, (normalBullet (ofList number) rest).1 = y :: ys ∧ margin y = 2 := by
  have hmargin : ∀ t : String, margin (stepIndent ++ ofList number ++ ". " ++ t) = 2 := by
    intro t
    rw [String.append_assoc, String.append_assoc]
    refine margin_append blanks_indents.1 fun c hc => ?_
    rw [toList_append, toList_ofList, head?_append_of_ne_nil _ hnumber] at hc
    exact isBlank_of_isDigit (hdigits c (mem_of_head? hc))
  cases hheader : bulletHeader? (collapse rest) with
  | none => exact ⟨_, _, congrArg Prod.fst (normalBullet_of_none hheader), hmargin _⟩
  | some h => exact ⟨_, _, congrArg Prod.fst (normalBullet_of_header hheader), hmargin _⟩

/-! ### Lines that were set -/

section Header

variable {h : String} (hline : IsOneLine (normalHeader h)) {part : Part} (hpart : part ≠ .outside)

theorem strip_header (h : String) : strip (headerIndent ++ normalHeader h) = normalHeader h := by
  rw [strip_append_of_blanks blanks_indents.2.1,
    strip_of_trimmed (trimmed_of_collapse (collapse_normalHeader h))]

include hline hpart

theorem normalLine_header (hheader : IsHeader (normalHeader h).toList) :
    normalLine part (headerIndent ++ normalHeader h) = ([headerIndent ++ normalHeader h], .body) := by
  have hx : IsOneLine (headerIndent ++ normalHeader h) := isOneLine_append (by decide) hline
  have hopens : opensSet (headerIndent ++ normalHeader h) = false := by
    rw [← Bool.not_eq_true, opensSet_iff hx, strip_header]
    exact hheader.not_opens
  have hsets := sets_line hx hopens hpart
  rw [strip_header] at hsets
  generalize hcs : (normalHeader h).toList = cs at hsets hheader
  generalize lineHeader? part _ = header, normalLine part _ = out at hsets
  cases hsets with
  | step hnumber hdigits hrest => exact absurd ⟨_, _, rfl, hnumber, hdigits, hrest⟩ hheader.not_step
  | choose hchoose => exact absurd hchoose hheader.not_choose
  | header _ => rw [← hcs, ofList_toList, normalHeader_normalHeader]
  | blank => exact absurd hheader.colon_mem not_mem_nil
  | other _ _ hnot _ => exact absurd hheader hnot

theorem exists_normalLine_ne (hheader : ¬IsHeader (normalHeader h).toList) :
    ∃ y ys, (normalLine part (headerIndent ++ normalHeader h)).1 = y :: ys ∧
      y ≠ headerIndent ++ normalHeader h := by
  have hx : IsOneLine (headerIndent ++ normalHeader h) := isOneLine_append (by decide) hline
  have htrimmed := trimmed_of_collapse (collapse_normalHeader h)
  have hmargin : margin (headerIndent ++ normalHeader h) = 4 :=
    margin_append blanks_indents.2.1 htrimmed.first
  have hne : ∀ {y : String}, margin y ≠ 4 → y ≠ headerIndent ++ normalHeader h := by
    rintro y hy rfl
    exact hy hmargin
  cases hflow : opensSetFlow (headerIndent ++ normalHeader h) with
  | true =>
    rw [normalLine_flow hflow]
    exact ⟨_, _, rfl, hne (by decide)⟩
  | false =>
    cases hopens : opensSet (headerIndent ++ normalHeader h) with
    | true =>
      obtain ⟨c, hhead, hc⟩ := head?_normalSection hx hflow hopens
      rw [normalLine_section hflow hopens]
      exact ⟨_, _, rfl, hne (by rw [margin_of_head? hhead hc]; decide)⟩
    | false =>
      have hsets := sets_line hx hopens hpart
      rw [strip_header] at hsets
      generalize hcs : (normalHeader h).toList = cs at hsets hheader htrimmed
      generalize lineHeader? part _ = header, normalLine part _ = out at hsets
      cases hsets with
      | step hnumber hdigits hrest =>
        obtain ⟨y, ys, hout, hy⟩ := exists_normalBullet hnumber hdigits (ofList _)
        exact ⟨y, ys, hout, hne (by rw [hy]; decide)⟩
      | choose _ =>
        refine ⟨_, _, rfl, fun heq => ?_⟩
        have hsame : "Choose" = normalHeader h := by
          rw [← strip_header, ← heq]
          decide +kernel
        -- a capital is not written small
        have hlower : lower "Choose" = "Choose" := by
          rw [hsame, normalHeader, lower_lower]
        exact absurd hlower (by decide +kernel)
      | header hheader' => exact absurd hheader' hheader
      | blank => exact ⟨_, _, rfl, hne (by decide)⟩
      | other _ _ _ _ =>
        refine ⟨_, _, rfl, hne ?_⟩
        rw [margin_append (blanks_marginOf part) (trimmed_collapse _).first]
        cases part <;> decide

theorem setsHeader_iff (rest more : List String) :
    normalLinesFrom part ((headerIndent ++ normalHeader h) :: rest)
        = (headerIndent ++ normalHeader h) :: rest ++ more ↔
      IsHeader (normalHeader h).toList ∧ normalLinesFrom .body rest = rest ++ more := by
  rw [normalLinesFrom_cons]
  by_cases hheader : IsHeader (normalHeader h).toList
  · rw [normalLine_header hline hpart hheader, singleton_append, cons_append, cons_inj_right]
    exact (and_iff_right hheader).symm
  · obtain ⟨y, ys, hout, hy⟩ := exists_normalLine_ne hline hpart hheader
    refine iff_of_false (fun heq => ?_) fun h => hheader h.1
    rw [hout] at heq
    exact hy (cons.inj heq).1

end Header

theorem normalLine_numbered (hpart : part ≠ .outside) (hnumber : number ≠ [])
    (hdigits : ∀ c ∈ number, isDigit c) (hset : collapse t = t) (hne : t ≠ "")
    (hline : IsOneLine t) : normalLine part (stepIndent ++ ofList number ++ ". " ++ t)
      = normalBullet (ofList number) t := by
  have hplain : ∀ c ∈ number, isBlank c = false := fun c hc => isBlank_of_isDigit (hdigits c hc)
  have hrest : t.toList ≠ [] := fun hnil => hne (String.toList_eq_nil_iff.mp hnil)
  have hx : IsOneLine (stepIndent ++ ofList number ++ ". " ++ t) :=
    isOneLine_append (isOneLine_append (isOneLine_append (by decide)
      (isOneLine_of_plain (by rwa [toList_ofList]))) (by decide)) hline
  have hstrip : (strip (stepIndent ++ ofList number ++ ". " ++ t)).toList
      = number ++ '.' :: (' ' :: t.toList) := by
    have htrimmed : Trimmed isBlank (number ++ '.' :: (' ' :: t.toList)) := by
      refine ⟨fun c hc => ?_, fun c hc => (trimmed_of_collapse hset).last c ?_⟩
      · rw [head?_append_of_ne_nil _ hnumber] at hc
        exact hplain c (mem_of_head? hc)
      · rwa [append_cons, append_cons, getLast?_append_of_ne_nil _ hrest] at hc
    rw [@strip_of_blanks _ stepIndent.toList (number ++ '.' :: (' ' :: t.toList)) [] (by simp)
      blanks_indents.1 (forall_mem_nil _), strip_of_trimmed (by rwa [toList_ofList]),
      toList_ofList]
  have hopens : opensSet (stepIndent ++ ofList number ++ ". " ++ t) = false := by
    rw [← Bool.not_eq_true, opensSet_iff hx, hstrip]
    obtain ⟨d, number, rfl⟩ := exists_cons_of_ne_nil hnumber
    exact not_opens_of_digit (hdigits d mem_cons_self) _
  have hstands := stands_stripEnd hx.onLine
  rw [hstrip] at hstands
  have hcollapse : collapse (ofList (' ' :: t.toList)) = collapse t := by
    rw [collapse_eq, collapse_eq, @strip_of_blanks _ [' '] t.toList [] (by simp)
      (all_eq_true.mp (by decide)) (forall_mem_nil _), ofList_toList]
  rw [normalLine_inside hopens hpart,
    normalFlowLine_step hstands hnumber hdigits (cons_ne_nil _ _), normalBullet, hcollapse]
  rfl

theorem normalLine_step (hpart : part ≠ .outside) (hnumber : number ≠ [])
    (hdigits : ∀ c ∈ number, isDigit c) (hset : collapse t = t) (hne : t ≠ "")
    (hline : IsOneLine t) (hnone : bulletHeader? t = none) (hstep : normalStep t = t) :
    normalLine part (stepIndent ++ ofList number ++ ". " ++ t)
      = ([stepIndent ++ ofList number ++ ". " ++ t], .flow) := by
  have hout := @normalBullet_of_none (ofList number) t (by rw [hset]; exact hnone)
  rw [hset, hstep] at hout
  rw [normalLine_numbered hpart hnumber hdigits hset hne hline, hout]

theorem normalLine_empty (part : Part) : normalLine part "" = ([""], part) := by
  cases part <;> rfl

theorem normalLine_choose (hpart : part ≠ .outside) :
    normalLine part (headerIndent ++ "Choose") = ([headerIndent ++ "Choose"], .body) := by
  have hopens : opensSet (headerIndent ++ "Choose") = false := by decide +kernel
  have hstep : bulletLine.fits (stripEnd (headerIndent ++ "Choose")) = false := by decide +kernel
  have hchoose : chooseLine.fits (stripEnd (headerIndent ++ "Choose")) := by decide +kernel
  rw [normalLine_inside hopens hpart]
  unfold normalFlowLine
  rw [Option.not_isSome_iff_eq_none.mp (Bool.eq_false_iff.mp hstep)]
  exact if_pos hchoose

theorem isHeader_of_squeeze (h : IsHeader (squeeze cs)) : IsHeader cs := by
  have halike : Alike (squeeze cs) cs := squeezeFrom_squeezeFrom false cs
  refine keeps_alike.header halike h fun a x x' hcs ha hx hcondition => ?_
  -- a squeezed condition of two characters does not come from one
  have hsqueezed : squeeze x = x := by
    have hall : squeeze (a ++ (x ++ [':'])) = a ++ (x ++ [':']) := by rw [← hcs, halike, hcs]
    have hrest := (squeezed_of_append hall).2
    rw [show endsInRun false a = false by
      rw [endsInRun]
      cases hlast : a.getLast? with
      | none => rfl
      | some c => exact ha.last c hlast] at hrest
    exact (squeezed_of_append hrest).1
  obtain ⟨c, rest, rfl, hc, hne⟩ := hcondition
  obtain ⟨d, rest', rfl, hd⟩ := hx.exists_cons
  refine ⟨d, rest', rfl, ?_, ?_⟩
  · rcases hd with rfl | ⟨_, hd⟩
    · exact hc
    · exact isBlank_of_isSpacing hd
  · rintro rfl
    rw [Alike, hsqueezed] at hx
    have hlength := length_squeezeFrom_le false [d]
    rw [← show c :: rest = squeezeFrom false [d] from hx] at hlength
    exact hne (eq_nil_of_length_eq_zero (Nat.le_zero.mp (Nat.le_of_succ_le_succ hlength)))

theorem normalLine_other (hpart : part ≠ .outside)
    (hline : IsOneLine (marginOf part ++ collapse (ofList cs)))
    (htrimmed : Trimmed isBlank cs) (hopens : ¬(IsFlow cs ∨ IsSection cs)) (hstep : ¬IsStep cs)
    (hchoose : ¬Spells "choose" cs) (hheader : ¬IsHeader cs) (hne : cs ≠ []) :
    normalLine part (marginOf part ++ collapse (ofList cs))
      = ([marginOf part ++ collapse (ofList cs)], part) := by
  have hcollapse : (collapse (ofList cs)).toList = squeeze cs := by
    rw [toList_collapse, strip_of_trimmed (by rwa [toList_ofList]), toList_ofList]
  have halike : Alike (squeeze cs) cs := squeezeFrom_squeezeFrom false cs
  have hstrip : (strip (marginOf part ++ collapse (ofList cs))).toList = squeeze cs := by
    rw [strip_append_of_blanks (blanks_marginOf part), strip_collapse, hcollapse]
  have hopens' : opensSet (marginOf part ++ collapse (ofList cs)) = false := by
    rw [← Bool.not_eq_true, opensSet_iff hline, hstrip]
    exact fun h => hopens (h.imp halike.isFlow halike.isSection)
  have hsets := sets_line hline hopens' hpart
  rw [hstrip] at hsets
  generalize hsqueeze : squeeze cs = cs' at hsets
  generalize lineHeader? part _ = header, normalLine part _ = out at hsets
  cases hsets with
  | step hnumber hdigits hrest =>
    rw [hsqueeze] at halike
    exact absurd (halike.isStep ⟨_, _, rfl, hnumber, hdigits, hrest⟩) hstep
  | choose h =>
    rw [hsqueeze] at halike
    exact absurd (keeps_alike.spells halike h (by decide)) hchoose
  | header h => exact absurd (isHeader_of_squeeze (hsqueeze ▸ h)) hheader
  | blank => exact absurd (squeeze_eq_nil hsqueeze) hne
  | other _ _ _ _ =>
    rw [← hsqueeze, ← hcollapse, ofList_toList, collapse_collapse]

theorem IsTail.collapse_ne (h : IsTail cs) (hne : cs ≠ []) : collapse (ofList cs) ≠ "" := by
  obtain ⟨w, u, rfl, _, hu, htrimmed, hcollapse⟩ := h.exists_trimmed hne
  intro hempty
  have hchars := congrArg String.toList (hcollapse.trans hempty)
  rw [toList_collapse, strip_of_trimmed (by rwa [toList_ofList]),
    toList_ofList] at hchars
  exact hu (squeeze_eq_nil hchars)

theorem normalLine_normalSection (hline : IsOneLine line) (hflow : opensSetFlow line = false)
    (hset : opensSet line) (part : Part) :
    normalLine part (normalSection (stripEnd line)) = ([normalSection (stripEnd line)], .outside) := by
  obtain ⟨c, rest, hc, hrest, htail, hother, heq⟩ := exists_normalSection hline hflow hset
  have hout := isOneLine_normalSection (isOneLine_stripEnd hline)
  rw [heq] at hout ⊢
  obtain ⟨hne, hsettled, hname⟩ :=
    sectionText_settled (collapse_collapse _) (htail.collapse_ne hrest)
  generalize hb : sectionText (collapse (ofList rest)) = b at hout hne hsettled hname ⊢
  -- what is read of the line is its letter and the same title
  obtain ⟨after, hafter, hchars⟩ := exists_eq_strip b
  generalize hw : b.toList.takeWhile isBlank = w at hchars
  have hblanks : Blanks (' ' :: w) := forall_mem_cons.mpr ⟨by decide, fun d hd => by
    rw [← hw] at hd
    exact mem_takeWhile_imp hd⟩
  have hstrip : (strip (ofList [c] ++ ". " ++ b)).toList
      = c :: '.' :: (' ' :: w ++ (strip b).toList) := by
    have htrimmed : Trimmed isBlank (c :: '.' :: (' ' :: w ++ (strip b).toList)) := by
      refine ⟨fun d hd => ?_, fun d hd => (trimmed_strip b).last d ?_⟩
      · cases hd
        exact isBlank_of_isCapital hc
      · rwa [← cons_append, ← cons_append, getLast?_append_of_ne_nil _ hne] at hd
    rw [@strip_of_blanks _ [] (c :: '.' :: (' ' :: w ++ (strip b).toList)) after
      (by simp [hchars]) (forall_mem_nil _) hafter,
      strip_of_trimmed (by rwa [toList_ofList]), toList_ofList]
  have hread := stands_stripEnd hout.onLine
  rw [hstrip] at hread
  have hcollapse : collapse (ofList (' ' :: w ++ (strip b).toList)) = collapse b := by
    rw [collapse_eq, collapse_eq, @strip_of_blanks _ (' ' :: w) (strip b).toList [] (by simp)
      hblanks (forall_mem_nil _), ofList_toList, strip_strip]
  have htail' : IsTail (' ' :: w ++ (strip b).toList) :=
    IsTail.of_append (u := [c, '.']) hread.toIsTail
  have hflow' : opensSetFlow (ofList [c] ++ ". " ++ b) = false := by
    rw [opensSetFlow, ← Bool.not_eq_true, flowLine_fits_iff hread, isFlow_iff htail', hcollapse]
    exact fun h => hother ((isFlow_iff htail).mpr ⟨h.1, hname h.2⟩)
  have hset' : opensSet (ofList [c] ++ ". " ++ b) := by
    rw [opensSet_iff hout, hstrip]
    exact .inr ⟨c, _, rfl, hc, cons_ne_nil _ _⟩
  rw [normalLine_section hflow' hset', normalSection_stands hread hc (cons_ne_nil _ _),
    hcollapse, hsettled]

/-! ### Setting the lines again -/

theorem normalLinesFrom_stays_iff {next : Part} (hx : normalLine part x = ([x], next))
    (rest more : List String) : normalLinesFrom part ([x] ++ rest) = [x] ++ rest ++ more ↔
      normalLinesFrom next rest = rest ++ more := by
  rw [singleton_append, normalLinesFrom_cons, hx, singleton_append, cons_append, cons_inj_right]

theorem forall_mem_none_iff {q : String → Prop} {p : Prop} : (∀ h ∈ none, q h) ∧ p ↔ p := by simp

theorem normalBullet_again_iff (hpart : part ≠ .outside) (hnumber : number ≠ [])
    (hdigits : ∀ c ∈ number, isDigit c) {text : String} (hset : collapse text = text)
    (hline : IsOneLine text) (hempty : text ≠ "")
    (houts : ∀ s ∈ (normalBullet (ofList number) text).1, IsOneLine s)
    (rest more : List String) :
    normalLinesFrom part ((normalBullet (ofList number) text).1 ++ rest)
        = (normalBullet (ofList number) text).1 ++ rest ++ more ↔
      (∀ h ∈ bulletHeader? text, IsHeader (normalHeader h).toList) ∧
        normalLinesFrom (normalBullet (ofList number) text).2 rest = rest ++ more := by
  cases hheader : bulletHeader? text with
  | none =>
    have hout := @normalBullet_of_none (ofList number) text (by rw [hset]; exact hheader)
    obtain ⟨hne, hset', hnone, hstep⟩ := normalStep_settled hset hline hempty hheader
    rw [hset] at hout
    rw [hout, forall_mem_none_iff]
    exact normalLinesFrom_stays_iff (normalLine_step hpart hnumber hdigits hset' hne
      (isOneLine_normalStep hline) hnone hstep) rest more
  | some h =>
    have hout := @normalBullet_of_header (ofList number) text h (by rw [hset]; exact hheader)
    rw [hout] at houts ⊢
    have hheaderLine : IsOneLine (normalHeader h) := isOneLine_of_mem
      (houts (headerIndent ++ normalHeader h) (by simp)) fun c hc => by
        rw [toList_append]
        exact mem_append_right _ hc
    have hfirst : normalLine part (stepIndent ++ ofList number ++ ". " ++ "Repeat")
        = ([stepIndent ++ ofList number ++ ". " ++ "Repeat"], .flow) := by
      obtain ⟨hset', hnone, hstep, _⟩ := capitalVerbs_settled ("repeat", "Repeat") mem_cons_self
      exact normalLine_step hpart hnumber hdigits hset' (by decide) (by decide) hnone hstep
    have hflow : Part.flow ≠ .outside := Part.noConfusion
    refine (normalLinesFrom_stays_iff hfirst _ more).trans
      ((setsHeader_iff hheaderLine hflow rest more).trans ?_)
    simp

theorem Sets.again_iff (hpart : part ≠ .outside) {header : Option String} {out : List String × Part}
    (h : Sets part cs header out) (hline : IsOneLine (ofList cs))
    (htrimmed : Trimmed isBlank cs) (hopens : ¬(IsFlow cs ∨ IsSection cs))
    (houts : ∀ s ∈ out.1, IsOneLine s) (rest more : List String) :
    normalLinesFrom part (out.1 ++ rest) = out.1 ++ rest ++ more ↔
      (∀ h ∈ header, IsHeader (normalHeader h).toList) ∧
        normalLinesFrom out.2 rest = rest ++ more := by
  cases h with
  | @step number text hnumber hdigits hrest =>
    have hchars : ∀ c ∈ (ofList text).toList,
        c ∈ (ofList (number ++ '.' :: text)).toList := by
      intro c hc
      rw [toList_ofList] at hc ⊢
      simp [hc]
    have htextLine := isOneLine_collapse (isOneLine_of_mem hline hchars)
    have hsame : normalBullet (ofList number) (ofList text)
        = normalBullet (ofList number) (collapse (ofList text)) := by
      rw [normalBullet, normalBullet, collapse_collapse]
    have htail : IsTail ((number ++ ['.']) ++ text) := by
      rw [← append_cons]
      exact ⟨fun c hc => hline.onLine c (by rwa [toList_ofList]), htrimmed.last⟩
    rw [hsame] at houts ⊢
    exact normalBullet_again_iff hpart hnumber hdigits (collapse_collapse _) htextLine
      (htail.of_append.collapse_ne hrest) houts rest more
  | choose _ =>
    rw [forall_mem_none_iff]
    exact normalLinesFrom_stays_iff (normalLine_choose hpart) rest more
  | header h =>
    have hheaderLine := isOneLine_lower (isOneLine_collapse hline)
    refine (setsHeader_iff hheaderLine hpart rest more).trans ?_
    simp
  | blank =>
    rw [forall_mem_none_iff]
    exact normalLinesFrom_stays_iff (normalLine_empty part) rest more
  | other hstep hchoose hheader hne =>
    rw [forall_mem_none_iff]
    exact normalLinesFrom_stays_iff (normalLine_other hpart (houts _ (by simp)) htrimmed hopens
      hstep hchoose hheader hne) rest more

theorem normalLinesFrom_line_iff (part : Part) (hline : IsOneLine line) (rest more : List String) :
    normalLinesFrom part ((normalLine part line).1 ++ rest)
        = (normalLine part line).1 ++ rest ++ more ↔
      (∀ h ∈ lineHeader? part line, IsHeader (normalHeader h).toList) ∧
        normalLinesFrom (normalLine part line).2 rest = rest ++ more := by
  cases hflow : opensSetFlow line with
  | true =>
    have hopens : opensSet line := Bool.or_eq_true_iff.mpr (.inl hflow)
    rw [lineHeader?_opens hopens, normalLine_flow hflow, forall_mem_none_iff]
    exact normalLinesFrom_stays_iff (normalLine_flow (by decide +kernel) part) rest more
  | false =>
    cases hopens : opensSet line with
    | true =>
      rw [lineHeader?_opens hopens, normalLine_section hflow hopens, forall_mem_none_iff]
      exact normalLinesFrom_stays_iff (normalLine_normalSection hline hflow hopens part) rest
        more
    | false =>
      by_cases hpart : part = .outside
      · have hend : stripEnd (stripEnd line) = stripEnd line := by
          rw [stripEnd, stripEnd, toList_ofList,
            dropEndWhile_of_last (last_dropEndWhile _ _)]
        have hopens' : opensSet (stripEnd line) = false := by
          rw [opensSet, hend]
          exact hopens
        rw [hpart, normalLine_outside hopens, show lineHeader? .outside line = none from rfl,
          forall_mem_none_iff]
        refine normalLinesFrom_stays_iff ?_ rest more
        rw [normalLine_outside hopens', hend]
      · refine (sets_line hline hopens hpart).again_iff hpart ?_ (trimmed_strip line) ?_
          (isOneLine_normalLine part hline) rest more
        · rw [ofList_toList]
          exact isOneLine_strip hline
        · rw [← opensSet_iff hline, hopens]
          exact Bool.false_ne_true

theorem normalLinesFrom_normalLinesFrom_iff (part : Part) (hls : ∀ line ∈ ls, IsOneLine line)
    (more : List String) :
    normalLinesFrom part (normalLinesFrom part ls) = normalLinesFrom part ls ++ more ↔
      (∀ h ∈ headers part ls, IsHeader (normalHeader h).toList) ∧ more = [] := by
  induction ls generalizing part with
  | nil => simp [normalLinesFrom, headers, eq_comm]
  | cons line ls ih =>
    obtain ⟨hline, hls⟩ := forall_mem_cons.mp hls
    rw [normalLinesFrom_cons, normalLinesFrom_line_iff part hline, ih _ hls, headers,
      forall_mem_append, and_assoc]
    simp

/-! ### The normal form of a normal form -/

theorem linesFrom_line {u : List Char} (hu : ∀ c ∈ u, isLineEnd c = false) (line : List Char)
    (started : Bool) (cs : List Char) :
    linesFrom line started (u ++ '\n' :: cs) = (line.reverse ++ u) :: linesFrom [] false cs := by
  induction u generalizing line started with
  | nil =>
    rw [nil_append, linesFrom, if_pos (by decide), append_nil]
    rintro _ ⟨⟩
  | cons c u ih =>
    obtain ⟨hc, hu⟩ := forall_mem_cons.mp hu
    rw [cons_append, linesFrom, if_neg (by simp [hc]), ih hu,
      reverse_cons, append_assoc, singleton_append]
    rintro _ rfl
    exact absurd hc (by decide)

theorem lines_join (h : ∀ s ∈ ls, IsOneLine s) : lines (String.join (ls.map (· ++ "\n"))) = ls := by
  rw [lines, String.toList_join, flatMap_map]
  induction ls with
  | nil => rfl
  | cons s ls ih =>
    obtain ⟨hs, hls⟩ := forall_mem_cons.mp h
    rw [flatMap_cons, toList_append, append_assoc]
    change (linesFrom [] false (s.toList ++ '\n' :: ls.flatMap fun a => (a ++ "\n").toList)).map
      ofList = _
    rw [linesFrom_line hs, map_cons, ih hls, reverse_nil, nil_append, ofList_toList]

theorem normalLinesFrom_replicate (part : Part) (n : Nat) :
    normalLinesFrom part (replicate n "") = replicate n "" := by
  induction n with
  | zero => rfl
  | succ n ih =>
    rw [replicate_succ, normalLinesFrom_cons, normalLine_empty, ih, singleton_append]

theorem exists_rdropWhile_append (ls : List String) :
    ∃ n, ls = ls.rdropWhile String.isEmpty ++ replicate n "" := by
  refine ⟨(ls.rtakeWhile String.isEmpty).length, ?_⟩
  conv => lhs; rw [← rdropWhile_append_rtakeWhile (p := String.isEmpty) (l := ls)]
  congr 1
  refine eq_replicate_of_mem fun s hs => ?_
  exact String.isEmpty_iff.mp (mem_rtakeWhile_imp hs)

theorem bulletHeader?_text {text h : String} (hline : IsOneLine text)
    (htrimmed : Trimmed isBlank text.toList) (hheader : bulletHeader? text = some h) :
    IsOneLine h ∧ Trimmed isBlank h.toList := by
  rw [bulletHeader?] at hheader
  split at hheader
  · obtain ⟨_, htail⟩ := @isOneLine_partition _ ' ' " " rfl hline
    rw [← Option.some_inj.mp hheader]
    refine ⟨isOneLine_strip ?_, trimmed_strip _⟩
    cases hcut : (partition text " ").2 with
    | none => exact forall_mem_nil _
    | some t => exact htail t hcut
  · split at hheader
    · rw [← Option.some_inj.mp hheader]
      exact ⟨hline, htrimmed⟩
    · cases hheader

theorem flowHeader?_text {h : String} (hline : IsOneLine line)
    (hheader : flowHeader? line = some h) : IsOneLine h ∧ Trimmed isBlank h.toList := by
  rw [flowHeader?] at hheader
  split at hheader
  · rename_i m hm
    exact bulletHeader?_text
      (isOneLine_collapse (isOneLine_of_mem hline (mem_of_group rfl hm "rest")))
      (trimmed_collapse _) hheader
  · split at hheader
    · rw [← Option.some_inj.mp hheader]
      exact ⟨isOneLine_strip hline, trimmed_strip line⟩
    · cases hheader

theorem headers_text (hls : ∀ line ∈ ls, IsOneLine line) :
    ∀ h ∈ headers part ls, IsOneLine h ∧ Trimmed isBlank h.toList := by
  induction ls generalizing part with
  | nil => exact forall_mem_nil _
  | cons line ls ih =>
    obtain ⟨hline, hls⟩ := forall_mem_cons.mp hls
    rw [headers, forall_mem_append]
    refine ⟨fun h hh => ?_, ih hls⟩
    rw [Option.mem_toList] at hh
    cases hopens : opensSet line with
    | true =>
      rw [lineHeader?_opens hopens] at hh
      cases hh
    | false =>
      by_cases hpart : part = .outside
      · rw [hpart] at hh
        cases hh
      · rw [lineHeader?_inside hopens hpart] at hh
        exact flowHeader?_text (isOneLine_stripEnd hline) hh

theorem isHeaderLine_normalHeader_iff {h : String} (hline : IsOneLine h) :
    isHeaderLine (normalHeader h) ↔ IsHeader (normalHeader h).toList :=
  isHeader_iff (stands_self (trimmed_of_collapse (collapse_normalHeader h))
    (isOneLine_lower (isOneLine_collapse hline)))

theorem normalOutline_normalOutline_iff (text : String) :
    normalOutline (normalOutline text) = normalOutline text ↔
      ∀ h ∈ headers .outside (lines text), isHeaderLine (normalHeader h) := by
  have hls : ∀ line ∈ lines text, IsOneLine line := fun _ hline => isLineEnd_of_mem_lines hline
  have hkinds : (∀ h ∈ headers .outside (lines text), isHeaderLine (normalHeader h)) ↔
      ∀ h ∈ headers .outside (lines text), IsHeader (normalHeader h).toList :=
    forall₂_congr fun h hh => isHeaderLine_normalHeader_iff (headers_text hls h hh).1
  have hlines : normalOutline (normalOutline text) = normalOutline text ↔
      (normalLinesFrom .outside (normalLines text)).rdropWhile String.isEmpty
        = normalLines text := by
    have hread : lines (normalOutline text) = normalLines text :=
      lines_join (isOneLine_normalLines text)
    rw [← hread, ← normalLines_eq, hread]
    exact ⟨lines_of_join (isOneLine_normalLines _) (isOneLine_normalLines text),
      fun h => by rw [normalOutline, h, normalOutline]⟩
  obtain ⟨n, hn⟩ := exists_rdropWhile_append (normalLinesFrom .outside (lines text))
  rw [← normalLines_eq] at hn
  have hset := normalLinesFrom_normalLinesFrom_iff .outside hls
  rw [hn, normalLinesFrom_append, normalLinesFrom_replicate] at hset
  rw [hlines, hkinds]
  constructor
  · intro hdrop
    obtain ⟨k, hk⟩ := exists_rdropWhile_append (normalLinesFrom .outside (normalLines text))
    rw [hdrop] at hk
    refine ((hset (replicate k "")).mp ?_).1
    rw [hk, append_assoc, append_assoc, replicate_append_replicate,
      replicate_append_replicate, Nat.add_comm]
  · intro hstays
    have hsame := (hset []).mpr ⟨hstays, rfl⟩
    rw [append_nil] at hsame
    rw [append_cancel_right hsame, normalLines_eq, rdropWhile_idempotent]

/-- **When setting an outline twice is setting it once.** The normal form of an outline is its
    own normal form if and only if each of its headers, once it is set, still reads as one. That
    is so of every header that reads as one before it is set, unless its condition is bare or
    it has a letter with two small characters. -/
theorem normalOutline_settles (text : String) :
    (normalOutline (normalOutline text) = normalOutline text ↔
      ∀ h ∈ headers .outside (lines text), isHeaderLine (normalHeader h) = true) ∧
    ∀ h ∈ headers .outside (lines text), isHeaderLine h = true → ¬IsBare h.toList →
      '\u0130' ∉ h.toList → isHeaderLine (normalHeader h) = true := by
  refine ⟨normalOutline_normalOutline_iff text, fun h hh hheader hbare hdot => ?_⟩
  obtain ⟨hline, htrimmed⟩ := headers_text (fun _ hline => isLineEnd_of_mem_lines hline) h hh
  have hkind : IsHeader h.toList := (isHeader_iff (stands_self htrimmed hline)).mp hheader
  exact (isHeaderLine_normalHeader_iff hline).mpr
    (isHeader_normalHeader htrimmed hkind hbare hdot)

/-- A header with its condition stays one. What stands beside a number need not be one. -/
theorem normalOutline_settles_repeatFor :
    normalOutline (normalOutline "D. Flow\nWhen  X:\n") = normalOutline "D. Flow\nWhen  X:\n" ∧
      normalOutline (normalOutline "D. Flow\n1. Repeat for i in 1..3:\n  Show i\n")
        ≠ normalOutline "D. Flow\n1. Repeat for i in 1..3:\n  Show i\n" := by
  have hwhen : headers .outside (lines "D. Flow\nWhen  X:\n") = ["When  X:"] := by decide +kernel
  have hfor : headers .outside (lines "D. Flow\n1. Repeat for i in 1..3:\n  Show i\n")
      = ["for i in 1..3:"] := by decide +kernel
  constructor
  · obtain ⟨hset, hstays⟩ := normalOutline_settles "D. Flow\nWhen  X:\n"
    refine hset.mpr fun h hh => hstays h hh ?_ ?_ ?_
    all_goals
      rw [hwhen, mem_singleton] at hh
      rw [hh]
    · decide +kernel
    · exact not_isBare (by decide)
    · decide
  · rw [ne_eq, (normalOutline_settles _).1, hfor, forall_mem_singleton]
    decide +kernel

end Loom.Outline
