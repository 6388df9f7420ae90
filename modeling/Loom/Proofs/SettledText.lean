import Loom.Proofs.Respacing

/-!
# Texts That Are Set

A line of the normal form is an indentation, perhaps a number or a letter, and a text that
was set: collapsed, and then written small, given its capital or cut at its colon. Here each
of these is shown to leave such a text as it is when it is set once more.

Two of them need an argument. The small form of a text is made of other characters and may
be longer, but it has its blanks where the text has them. A step with its verb in the usual
form reads as the step does: it opens no loop if that opened none.
-/

namespace Loom.Outline

open Loom.Text Loom.Text.Pattern List Wording Option
open String (ofList_toList toList_ofList ofList toList_inj)

variable {u cs : List Char} {t s title : String}

/-! ### Squeezed texts -/

theorem length_squeezeFrom_le (inRun : Bool) (cs : List Char) :
    (squeezeFrom inRun cs).length ≤ cs.length := by
  induction cs generalizing inRun with
  | nil => exact Nat.le_refl _
  | cons c cs ih =>
    rw [squeezeFrom]
    split
    · split
      · exact Nat.le_succ_of_le (ih true)
      · exact Nat.succ_le_succ (ih true)
    · exact Nat.succ_le_succ (ih false)

theorem squeezed_of_append {inRun : Bool} {v : List Char}
    (h : squeezeFrom inRun (u ++ v) = u ++ v) :
    squeezeFrom inRun u = u ∧ squeezeFrom (endsInRun inRun u) v = v := by
  rw [squeezeFrom_append] at h
  have hu := length_squeezeFrom_le inRun u
  have hv := length_squeezeFrom_le (endsInRun inRun u) v
  have hlength := congrArg List.length h
  rw [length_append, length_append] at hlength
  exact append_inj h (by omega)

theorem squeezed_of_collapse (h : collapse t = t) : squeeze t.toList = t.toList := by
  rw [← h, toList_collapse]
  exact squeezeFrom_squeezeFrom false _

theorem trimmed_of_collapse (h : collapse t = t) : Trimmed isBlank t.toList := by
  rw [← h]
  exact trimmed_collapse t

theorem collapse_of_squeezed (htrimmed : Trimmed isBlank t.toList)
    (h : squeeze t.toList = t.toList) : collapse t = t := by
  rw [collapse_eq, strip_of_trimmed htrimmed, h, ofList_toList]

theorem strip_append_of_blanks {indent : String} (h : Blanks indent.toList) (t : String) :
    strip (indent ++ t) = strip t := by
  rw [@strip_of_blanks (indent ++ t) indent.toList t.toList [] (by simp) h (forall_mem_nil _),
    ofList_toList]

/-! ### Headers -/

theorem squeezeFrom_lowerFrom {inRun : Bool} (h : squeezeFrom inRun cs = cs) (before : List Char) :
    squeezeFrom inRun (lowerFrom before cs) = lowerFrom before cs := by
  induction cs generalizing inRun before with
  | nil => rfl
  | cons c cs ih =>
    obtain ⟨hc, hcs⟩ := @squeezed_of_append [c] inRun cs h
    rw [endsInRun_cons] at hcs
    rw [lowerFrom, squeezeFrom_append]
    cases hspace : isSpacing c with
    | true =>
      rw [lowerBetween_of_isBlank (isBlank_of_isSpacing hspace), hc, endsInRun_cons]
      exact congrArg ([c] ++ ·) (ih hcs (c :: before))
    | false =>
      have hplain : ∀ d ∈ lowerBetween before c cs, isSpacing d = false := by
        intro d hd
        cases hblank : isBlank c with
        | true =>
          rw [lowerBetween_of_isBlank hblank, mem_singleton] at hd
          rwa [hd]
        | false =>
          exact isSpacing_of_not_isBlank ((mem_lowerBetween hd).2.trans hblank)
      have hlast : endsInRun inRun (lowerBetween before c cs) = isSpacing c := by
        rw [endsInRun, getLast?_eq_some_getLast (lowerBetween_ne_nil before c cs), hspace]
        exact hplain _ (getLast_mem _)
      rw [hlast, squeezeFrom_of_head (fun d hd => hplain d (mem_of_head? hd)),
        squeeze_of_plain hplain]
      exact congrArg (lowerBetween before c cs ++ ·) (ih hcs (c :: before))

theorem collapse_lower (h : collapse t = t) : collapse (lower t) = lower t := by
  have htrimmed := trimmed_of_collapse h
  have hlower : (lower t).toList = lowerFrom [] t.toList := toList_ofList
  refine collapse_of_squeezed ⟨fun c hc => ?_, fun c hc => ?_⟩ ?_
  · rw [hlower] at hc
    obtain ⟨d, hd, hblank⟩ := head?_lowerFrom hc
    exact hblank.trans (htrimmed.first d hd)
  · rw [hlower] at hc
    obtain ⟨d, hd, hblank⟩ := getLast?_lowerFrom hc
    exact hblank.trans (htrimmed.last d hd)
  · rw [hlower]
    exact squeezeFrom_lowerFrom (squeezed_of_collapse h) []

theorem collapse_normalHeader (h : String) : collapse (normalHeader h) = normalHeader h :=
  collapse_lower (collapse_collapse h)

theorem normalHeader_normalHeader (h : String) : normalHeader (normalHeader h) = normalHeader h := by
  rw [normalHeader, collapse_normalHeader, normalHeader, lower_lower]

/-! ### Headers in small letters -/

def IsSmallOf (c d : Char) : Prop :=
  c ≠ '\u0130' ∧ ∃ before after, lowerBetween before c after = [d]

theorem forall₂_lowerFrom (h : '\u0130' ∉ cs) (before : List Char) :
    List.Forall₂ IsSmallOf cs (lowerFrom before cs) := by
  induction cs generalizing before with
  | nil => exact .nil
  | cons c cs ih =>
    rw [mem_cons, not_or] at h
    have hone : ∃ d, lowerBetween before c cs = [d] := by
      by_cases hsigma : c = 'Σ'
      · rw [hsigma]
        exact ⟨_, rfl⟩
      · exact ⟨_, lowerBetween_of_ne (Ne.symm h.1) hsigma before cs⟩
    obtain ⟨d, hd⟩ := hone
    rw [lowerFrom, hd]
    exact .cons ⟨Ne.symm h.1, before, cs, hd⟩ (ih h.2 (c :: before))

namespace IsSmallOf

variable {c d : Char}

theorem isBlank (h : IsSmallOf c d) : Text.isBlank d = Text.isBlank c := by
  obtain ⟨_, before, after, hd⟩ := h
  exact (mem_lowerBetween (by rw [hd]; exact mem_singleton_self d)).2

theorem eq_lowerChar (h : IsSmallOf c d) (hsigma : c ≠ 'Σ') : d = lowerChar c := by
  obtain ⟨hdot, before, after, hd⟩ := h
  rw [lowerBetween_of_ne hdot hsigma] at hd
  exact (List.cons.inj hd).1.symm

theorem isWord (h : IsSmallOf c d) (hc : Text.isWord c = false) : Text.isWord d = false := by
  rw [h.eq_lowerChar (by rintro rfl; exact absurd hc (by decide +kernel))]
  exact isWord_lowerChar hc

theorem inName_ascii : ∀ n : Fin 128,
    (startsName (Char.ofNat n) → startsName (Char.ofNat n).toLower) ∧
    (inName (Char.ofNat n) → inName (Char.ofNat n).toLower) := by
  decide +kernel

theorem inName (h : IsSmallOf c d) : (startsName c → startsName d) ∧
    (Outline.inName c → Outline.inName d) := by
  by_cases hascii : c.toNat < 128
  · have hd : d = c.toLower := by
      rw [h.eq_lowerChar (by rintro rfl; exact absurd hascii (by decide)), lowerChar, if_pos hascii]
    have hname := inName_ascii ⟨c.toNat, hascii⟩
    rwa [Char.ofNat_toNat, ← hd] at hname
  · have hletter : Outline.inName c → isLetterLike c := by
      simp only [Outline.inName, Bool.or_eq_true, Bool.and_eq_true, decide_eq_true_eq, beq_iff_eq]
      rintro ((hc | hc) | rfl)
      · exact hc
      · have hlast : c.toNat ≤ 57 := hc.2
        omega
      · exact absurd (by decide) hascii
    have hsmall : isLetterLike c → isLetterLike d := by
      intro hc
      rw [h.eq_lowerChar (by rintro rfl; exact absurd hc (by decide))]
      simp only [isLetterLike, Bool.or_eq_true, beq_iff_eq] at hc
      rcases hc with (((hc | rfl) | rfl) | rfl) | rfl
      · exact absurd (lt_of_isAsciiLetter hc) hascii
      · decide +kernel
      · decide +kernel
      · decide +kernel
      · exact absurd rfl h.1
    refine ⟨fun hc => ?_, fun hc => ?_⟩
    · have hin : Outline.inName c := by
        rw [startsName, Bool.or_eq_true] at hc
        rw [Outline.inName, Bool.or_eq_true, Bool.or_eq_true]
        exact hc.elim (fun hc => .inl (.inl hc)) .inr
      rw [startsName, hsmall (hletter hin)]
      rfl
    · rw [Outline.inName, hsmall (hletter hc)]
      rfl

theorem sameLetter (h : IsSmallOf c d) {letter : Char} (hletter : isAsciiLetter letter)
    (hc : Text.sameLetter letter c) : Text.sameLetter letter d := by
  rw [h.eq_lowerChar (by
    rintro rfl
    exact absurd (isLetterLike_of_sameLetter hletter hc) (by decide))]
  simp only [Text.sameLetter, Bool.or_eq_true, Bool.and_eq_true, beq_iff_eq] at hc
  rcases hc with ((rfl | ⟨rfl, rfl⟩) | ⟨rfl, rfl⟩) | ⟨rfl, rfl | rfl⟩
  · have hascii : c.toNat < 128 := by
      by_cases hupper : c.val ≥ 65 ∧ c.val ≤ 90
      · have hlast : c.toNat ≤ 90 := hupper.2
        omega
      · have hsame : c.toLower = c := dif_neg hupper
        rw [hsame] at hletter
        exact lt_of_isAsciiLetter hletter
    have hsmall := (lowerChar_ascii hascii).1
    have hlower : lowerChar c = c.toLower := if_pos hascii
    rw [isSmall, Bool.and_eq_true, beq_iff_eq, hlower, lowerForm, if_neg (by
      rw [beq_iff_eq]
      intro hdot
      rw [hdot] at hletter
      exact absurd hletter (by decide)), lowerChar, if_pos (lt_of_isAsciiLetter hletter)] at hsmall
    rw [Text.sameLetter, hlower, (List.cons.inj hsmall.1).1, beq_self_eq_true]
    rfl
  · decide +kernel
  · decide +kernel
  · decide +kernel
  · exact absurd rfl h.1

end IsSmallOf

theorem keeps_small : Keeps (List.Forall₂ IsSmallOf) where
  cut := by
    intro u v cs h _
    refine ⟨cs.take u.length, cs.drop u.length, (take_append_drop _ _).symm, ?_, ?_⟩
    · have htake := forall₂_take u.length h
      rwa [take_left] at htake
    · have hdrop := forall₂_drop u.length h
      rwa [drop_left] at hdrop
  ne_nil := by
    rintro u _ h hne rfl
    cases h
    exact hne rfl
  blanks := by
    intro u u' h hu
    induction h with
    | nil => exact forall_mem_nil _
    | cons hc _ ih =>
      rw [Blanks, forall_mem_cons] at hu
      exact forall_mem_cons.mpr ⟨hc.isBlank.trans hu.1, ih hu.2⟩
  spells := by
    intro u u' w h hu hw
    unfold Spells at hu ⊢
    generalize w.toList = letters at hu hw ⊢
    induction hu generalizing u' with
    | nil =>
      cases h
      exact .nil
    | cons hc _ ih =>
      rw [all_cons, Bool.and_eq_true] at hw
      cases h with
      | cons hd h => exact .cons (hd.sameLetter hw.1 hc) (ih h hw.2)
  name := by
    rintro _ _ h ⟨c, rest, rfl, hc, hrest⟩
    cases h with
    | @cons _ d _ rest' hd h =>
      refine ⟨d, rest', rfl, hd.inName.1 hc, ?_⟩
      clear hd hc
      induction h with
      | nil => exact forall_mem_nil _
      | cons hd _ ih =>
        rw [forall_mem_cons] at hrest
        exact forall_mem_cons.mpr ⟨hd.inName.2 hrest.1, ih hrest.2⟩
  colon := by
    intro u h
    cases h with
    | cons hd h =>
      cases h
      rw [hd.eq_lowerChar (by decide)]
      rfl
  apart := by
    rintro _ _ h ⟨c, rest, rfl, hc⟩
    cases h with
    | @cons _ d _ rest' hd h => exact ⟨d, rest', rfl, hd.isWord hc⟩

theorem isHeader_normalHeader {h : String} (htrimmed : Trimmed isBlank h.toList)
    (hheader : IsHeader h.toList) (hbare : ¬IsBare h.toList) (hdot : '\u0130' ∉ h.toList) :
    IsHeader (normalHeader h).toList := by
  have hcollapse : (collapse h).toList = squeeze h.toList := by
    rw [toList_collapse, strip_of_trimmed htrimmed]
  have halike : Alike h.toList (squeeze h.toList) := (squeezeFrom_squeezeFrom false _).symm
  have hsmall := @forall₂_lowerFrom (squeeze h.toList) (fun hmem =>
    (mem_squeezeFrom hmem).elim (by decide) hdot) []
  rw [normalHeader, lower, toList_ofList, hcollapse]
  refine keeps_small.header hsmall (halike.isHeader hheader hbare) ?_
  rintro _ x x' _ _ hx ⟨c, rest, rfl, hc, hne⟩
  cases hx with
  | @cons _ d _ rest' hd h =>
    exact ⟨d, rest', rfl, hd.isBlank.trans hc, keeps_small.ne_nil h hne⟩

/-! ### Steps -/

/-- The header of a loop that stands beside its number, if a step is one. -/
def bulletHeader? (text : String) : Option String :=
  if startsWith (lower text) "repeat " && endsWith (lower text) ":" then
    some (strip ((partition text " ").2.getD ""))
  else if rangeLine.fits text then some text
  else none

theorem normalBullet_of_header {number rest h : String}
    (hheader : bulletHeader? (collapse rest) = some h) :
    normalBullet number rest = ([stepIndent ++ number ++ ". " ++ "Repeat",
      headerIndent ++ normalHeader h], .body) := by
  rw [bulletHeader?] at hheader
  rw [normalBullet]
  split at hheader
  · rename_i hrepeat
    rw [if_pos hrepeat, ← some_inj.mp hheader]
  · rename_i hrepeat
    split at hheader
    · rename_i hrange
      rw [if_neg hrepeat, if_pos hrange, ← some_inj.mp hheader]
    · cases hheader

theorem normalBullet_of_none {number rest : String} (hnone : bulletHeader? (collapse rest) = none) :
    normalBullet number rest
      = ([stepIndent ++ number ++ ". " ++ normalStep (collapse rest)], .flow) := by
  rw [bulletHeader?] at hnone
  rw [normalBullet]
  split at hnone
  · cases hnone
  · rename_i hrepeat
    split at hnone
    · cases hnone
    · rename_i hrange
      rw [if_neg hrepeat, if_neg hrange]

theorem rangeLine_fits_iff (h : Stands s cs) :
    rangeLine.fits s ↔ ∃ u b v x, cs = u ++ (b ++ (v ++ (x ++ [':']))) ∧ IsName u ∧
      IsSpace b ∧ Spells "in" v ∧ IsCondition x := by
  rw [fits_iff (by decide), rangeLine_goes_iff h]

theorem stands_self (h : Trimmed isBlank s.toList) (hline : IsOneLine s) : Stands s s.toList :=
  stands_of_append (w := []) rfl (forall_mem_nil _) h hline.onLine

theorem capitalVerbs_settled : ∀ v ∈ capitalVerbs, collapse v.2 = v.2 ∧
    bulletHeader? v.2 = none ∧ normalStep v.2 = v.2 ∧ Wording.capitalOf? v.2 = some v.2 ∧
    lower v.2 = v.1 ∧ v.1.toList.all Char.isAlpha ∧ v.2.toList.all Char.isAlpha ∧
    v.1 ≠ "" ∧ v.2 ≠ "" := by
  decide +kernel

theorem mem_of_capitalOf? {head verb : String} (h : Wording.capitalOf? head = some verb) :
    (lower head, verb) ∈ capitalVerbs := by
  rw [capitalOf?, map_eq_some_iff] at h
  obtain ⟨⟨small, _⟩, hfind, rfl⟩ := h
  have hsame := find?_some hfind
  obtain rfl : small = lower head := eq_of_beq hsame
  exact mem_of_find?_eq_some hfind

section Verb

variable {text : String} {u v : List Char} {verb : String} (htext : text.toList = u ++ ' ' :: v)
  (hset : collapse text = text) (hverb : Wording.capitalOf? (ofList u) = some verb)

include htext hset hverb

theorem collapse_verb : collapse (verb ++ " " ++ ofList v) = verb ++ " " ++ ofList v := by
  obtain ⟨_, _, _, _, _, _, hletters, _, hne⟩ := capitalVerbs_settled _ (mem_of_capitalOf? hverb)
  have hplain : ∀ c ∈ verb.toList, isBlank c = false := fun c hc =>
    isBlank_of_isAsciiLetter (all_eq_true.mp hletters c hc)
  have hchars : (verb ++ " " ++ ofList v).toList = verb.toList ++ ' ' :: v := by simp
  have hne : verb.toList ≠ [] := fun hnil => hne (String.toList_eq_nil_iff.mp hnil)
  have hrest : squeeze (' ' :: v) = ' ' :: v := by
    have hsqueezed := squeezed_of_collapse hset
    rw [htext, append_cons] at hsqueezed
    have hv := (squeezed_of_append hsqueezed).2
    rw [endsInRun, getLast?_concat] at hv
    exact congrArg (' ' :: ·) hv
  refine collapse_of_squeezed ⟨fun c hc => ?_, fun c hc => ?_⟩ ?_
  · rw [hchars, head?_append_of_ne_nil _ hne] at hc
    exact hplain c (mem_of_head? hc)
  · refine (trimmed_of_collapse hset).last c ?_
    rw [hchars, getLast?_append_of_ne_nil _ (cons_ne_nil _ _)] at hc
    rw [htext, getLast?_append_of_ne_nil _ (cons_ne_nil _ _), hc]
  · rw [hchars, squeeze_append_of_last fun c hc =>
      isSpacing_of_not_isBlank (hplain c (mem_of_getLast? hc)), hrest,
      squeeze_of_plain fun c hc => isSpacing_of_not_isBlank (hplain c hc)]

omit hset in
theorem lower_verb : lower (verb ++ " " ++ ofList v) = lower text := by
  obtain ⟨_, _, _, _, hlower, _⟩ := capitalVerbs_settled _ (mem_of_capitalOf? hverb)
  have hsame : lowerFrom [] verb.toList = lowerFrom [] u := by
    have hchars := congrArg String.toList hlower
    simpa only [lower, toList_ofList] using hchars
  have hchars : (verb ++ " " ++ ofList v).toList = verb.toList ++ ' ' :: v := by simp
  rw [lower, lower, hchars, htext, lowerFrom_append_space, lowerFrom_append_space, hsame]

theorem rangeLine_fits_verb (hline : IsOneLine text)
    (h : rangeLine.fits (verb ++ " " ++ ofList v)) : rangeLine.fits text := by
  obtain ⟨_, _, _, _, _, hsmall, hletters, hne, _⟩ :=
    capitalVerbs_settled _ (mem_of_capitalOf? hverb)
  have hchars : (verb ++ " " ++ ofList v).toList = verb.toList ++ ' ' :: v := by simp
  have hplain : ∀ c ∈ verb.toList, isBlank c = false := fun c hc =>
    isBlank_of_isAsciiLetter (all_eq_true.mp hletters c hc)
  have hvLine : IsOneLine (ofList v) := isOneLine_of_mem hline fun c hc => by
    rw [toList_ofList] at hc
    rw [htext]
    simp [hc]
  have hstands := stands_self (trimmed_of_collapse (collapse_verb htext hset hverb))
    (isOneLine_append (isOneLine_append (isOneLine_of_plain hplain) (by decide)) hvLine)
  obtain ⟨n, b, w, x, heq, hn, hb, hw, hx⟩ := (rangeLine_fits_iff hstands).mp h
  rw [hchars] at heq
  -- the name of the loop is the verb: both are what stands before the first blank
  have hcut : verb.toList = n ∧ ' ' :: v = b ++ (w ++ (x ++ [':'])) := by
    obtain ⟨c, b, rfl⟩ := exists_cons_of_ne_nil hb.1
    have hfirst := hb.2 c mem_cons_self
    have hname : verb.toList = n := by
      rw [← @takeWhile_append_of_head (' ' :: v) (!isBlank ·) verb.toList
          (fun d hd => by simp [hplain d hd]) (fun d hd => by cases hd; decide), heq,
        takeWhile_append_of_head (fun d hd => by simp [hn.plain d hd]) (fun d hd => by
          cases hd
          simp [hfirst])]
    rw [hname] at heq
    exact ⟨hname, append_cancel_left heq⟩
  have hu : IsName u := by
    have hall : ∀ d ∈ lowerFrom [] u, d.isAlpha := by
      intro d hd
      refine all_eq_true.mp hsmall d ?_
      rwa [lower, toList_ofList, toList_ofList]
    have hletters := isLetterLike_of_lowerFrom hall
    cases u with
    | nil => exact absurd rfl hne
    | cons c u =>
      rw [forall_mem_cons] at hletters
      refine ⟨c, u, rfl, ?_, fun d hd => ?_⟩
      · rw [startsName, hletters.1]
        rfl
      · rw [inName, hletters.2 d hd]
        rfl
  rw [rangeLine_fits_iff (stands_self (trimmed_of_collapse hset) hline), htext, hcut.2]
  exact ⟨u, b, w, x, rfl, hu, hb, hw, hx⟩

end Verb

theorem normalStep_settled {text : String} (hset : collapse text = text) (hline : IsOneLine text)
    (hempty : text ≠ "") (hnone : bulletHeader? text = none) :
    normalStep text ≠ "" ∧ collapse (normalStep text) = normalStep text ∧
      bulletHeader? (normalStep text) = none ∧ normalStep (normalStep text) = normalStep text := by
  by_cases hspace : ' ' ∈ text.toList
  · obtain ⟨u, v, htext, hu⟩ := eq_append_cons_of_mem hspace
    have hne : v ≠ [] := by
      rintro rfl
      exact absurd ((trimmed_of_collapse hset).last ' ' (by rw [htext, getLast?_concat]))
        (by decide)
    have htail : (ofList v).isEmpty = false := by
      rw [← Bool.not_eq_true, String.isEmpty_iff, ← toList_inj, toList_ofList]
      exact hne
    have hcut : partition (collapse text) " " = (ofList u, some (ofList v)) := by
      rw [hset]
      exact @partition_of_mem _ _ ' ' " " rfl _ htext hu
    rw [normalStep_words hcut htail, hset]
    cases hverb : capitalOf? (ofList u) with
    | none =>
      refine ⟨hempty, hset, hnone, ?_⟩
      rw [map_none, getD_none, normalStep_words hcut htail, hverb, hset]
      rfl
    | some verb =>
      rw [map_some, getD_some]
      obtain ⟨_, _, _, hself, _, _, hletters, _⟩ := capitalVerbs_settled _ (mem_of_capitalOf? hverb)
      have hcollapse := collapse_verb htext hset hverb
      refine ⟨fun hnil => ?_, hcollapse, ?_, ?_⟩
      · have hchars := congrArg String.toList hnil
        simp at hchars
      · rw [bulletHeader?] at hnone ⊢
        rw [lower_verb htext hverb]
        split at hnone
        · cases hnone
        · rename_i hrepeat
          split at hnone
          · cases hnone
          · rename_i hrange
            rw [if_neg hrepeat, if_neg fun h => hrange (rangeLine_fits_verb htext hset hverb hline h)]
      · have hcut' : partition (collapse (verb ++ " " ++ ofList v)) " "
            = (verb, some (ofList v)) := by
          have hplain : ' ' ∉ verb.toList := fun hmem =>
            absurd (all_eq_true.mp hletters _ hmem) (by decide)
          rw [hcollapse, @partition_of_mem v verb.toList ' ' " " rfl _ (by simp) hplain,
            ofList_toList]
        rw [normalStep_words hcut' htail, hself]
        rfl
  · have hcut : partition (collapse text) " " = (text, none) := by
      rw [hset]
      exact @partition_of_not_mem ' ' [] " " rfl _ hspace
    rw [normalStep_word hcut, hset]
    cases hverb : capitalOf? text with
    | none =>
      refine ⟨hempty, hset, hnone, ?_⟩
      rw [getD_none, normalStep_word hcut, hverb, hset]
      rfl
    | some verb =>
      obtain ⟨hcollapse, hheader, hstep, _, _, _, _, _, hne⟩ :=
        capitalVerbs_settled _ (mem_of_capitalOf? hverb)
      exact ⟨hne, hcollapse, hheader, hstep⟩

/-! ### Titles -/

theorem squeezed_strip (h : squeeze cs = cs) :
    squeeze (strip (ofList cs)).toList = (strip (ofList cs)).toList := by
  rw [← strip_squeeze, toList_ofList, h]

theorem collapse_key {w after : List Char} (hu : ∀ c, u.head? = some c → isBlank c = false)
    (hw : ∀ c, w.getLast? = some c → isBlank c = false) (hafter : Blanks after)
    (hsqueezed : squeeze u = u) (hsqueezed' : squeeze w = w) :
    collapse (ofList (u ++ ':' :: (w ++ after))) = ofList (u ++ ':' :: w) := by
  have htrimmed : Trimmed isBlank (u ++ ':' :: w) := by
    refine ⟨fun c hc => ?_, fun c hc => ?_⟩
    · cases u with
      | nil => cases hc; decide
      | cons d u => exact hu c hc
    · rw [getLast?_append_of_ne_nil _ (cons_ne_nil _ _), getLast?_cons] at hc
      cases hlast : w.getLast? with
      | none => rw [hlast] at hc; cases hc; decide
      | some d => rw [hlast] at hc; cases hc; exact hw d hlast
  have hstrip := @strip_of_blanks (ofList (u ++ ':' :: (w ++ after))) [] (u ++ ':' :: w)
    after (by rw [toList_ofList, nil_append, append_assoc]; rfl)
    (forall_mem_nil _) hafter
  have hsqueeze : squeeze (u ++ ':' :: w) = u ++ ':' :: w := by
    rw [squeeze_append u (fun c hc => by cases hc; decide), hsqueezed, squeeze, squeezeFrom]
    exact congrArg (u ++ ':' :: ·) hsqueezed'
  rw [collapse_eq, hstrip, strip_of_trimmed (by rwa [toList_ofList]), toList_ofList,
    hsqueeze]

theorem exists_collapse_sectionText {u v : String} (hu : collapse u = u) (hv : collapse v = v) :
    ∃ w, collapse (u ++ ": " ++ v) = ofList (u.toList ++ ':' :: w) ∧
      strip (ofList w) = v := by
  have htrimmed := trimmed_of_collapse hv
  have hkey := squeezed_of_collapse hu
  have hspace : Blanks [' '] := all_eq_true.mp (by decide)
  have hchars : u ++ ": " ++ v = ofList (u.toList ++ ':' :: ([' '] ++ v.toList)) := by
    rw [← toList_inj, toList_ofList, String.toList_append, String.toList_append,
      append_assoc]
    rfl
  rw [hchars]
  by_cases hempty : v.toList = []
  · refine ⟨[], ?_, ?_⟩
    · rw [hempty, append_nil]
      exact collapse_key (w := []) (trimmed_of_collapse hu).first (by rintro _ ⟨⟩) hspace hkey rfl
    · rw [String.toList_eq_nil_iff.mp hempty]
      rfl
  · have hlast : ∀ c, ([' '] ++ v.toList).getLast? = some c → isBlank c = false := by
      intro c hc
      rw [getLast?_append_of_ne_nil _ hempty] at hc
      exact htrimmed.last c hc
    have hspaced : squeeze ([' '] ++ v.toList) = [' '] ++ v.toList := by
      rw [squeeze_append _ fun c hc => isSpacing_of_not_isBlank (htrimmed.first c hc),
        squeezed_of_collapse hv]
      rfl
    refine ⟨[' '] ++ v.toList, ?_, ?_⟩
    · have hcut := @collapse_key u.toList _ [] (trimmed_of_collapse hu).first hlast
        (forall_mem_nil _) hkey hspaced
      rwa [append_nil] at hcut
    · rw [@strip_of_blanks _ [' '] v.toList [] (by rw [toList_ofList, append_nil])
        hspace (forall_mem_nil _), ofList_toList, strip_of_trimmed htrimmed]

theorem sectionText_settled (hset : collapse title = title) (hne : title ≠ "") :
    (strip (sectionText title)).toList ≠ [] ∧
      sectionText (collapse (sectionText title)) = sectionText title ∧
      (Spells "flow" (collapse (sectionText title)).toList → Spells "flow" title.toList) := by
  by_cases hcolon : ':' ∈ title.toList
  · obtain ⟨u, v, htitle, hu⟩ := eq_append_cons_of_mem hcolon
    have hsqueezed := squeezed_of_collapse hset
    rw [htitle, append_cons] at hsqueezed
    obtain ⟨hstart, hv⟩ := squeezed_of_append hsqueezed
    rw [endsInRun, getLast?_concat] at hv
    have hkey := collapse_of_squeezed (trimmed_strip _) (squeezed_strip (squeezed_of_append hstart).1)
    have hvalue := collapse_of_squeezed (trimmed_strip _) (squeezed_strip hv)
    have hnot : ':' ∉ (strip (ofList u)).toList := by
      obtain ⟨after, _, heq⟩ := exists_eq_strip (ofList u)
      intro hmem
      refine hu ?_
      rw [← @toList_ofList u, heq]
      simp [hmem]
    obtain ⟨w, hcollapse, hw⟩ := exists_collapse_sectionText hkey hvalue
    rw [sectionText_of_colon htitle hu]
    refine ⟨fun hnil => ?_, ?_, fun hflow => ?_⟩
    · have hchars := congrArg String.toList hcollapse
      rw [toList_collapse, hnil, toList_ofList] at hchars
      exact absurd hchars.symm (append_ne_nil_of_right_ne_nil _ (cons_ne_nil _ _))
    · rw [hcollapse, sectionText_of_colon toList_ofList hnot, ofList_toList,
        strip_strip, hw]
    · have hletters := hflow.letters (by decide) ':' (by
        rw [hcollapse, toList_ofList]
        exact mem_append_right _ mem_cons_self)
      cases hletters
  · rw [sectionText_of_no_colon hcolon, hset, strip_of_trimmed (trimmed_of_collapse hset)]
    exact ⟨fun hnil => hne (String.toList_eq_nil_iff.mp hnil), sectionText_of_no_colon hcolon, id⟩

end Loom.Outline
