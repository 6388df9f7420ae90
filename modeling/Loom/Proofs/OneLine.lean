import Loom.Proofs.SmallLetters
import Loom.Proofs.Wording

/-!
# Lines Stay Lines

An outline in normal form is put together from lines, each with a line feed after
it. To take it apart again one has to know that setting a line never makes a line
end: what is copied comes from the line, what is added has none, and no letter has
a line end for its small form.
-/

/-! ### The parts of a match -/

namespace Loom.Text.Pattern

open List

variable {s line : String}

def repeats : Pattern → Bool
  | .repeated _ => true
  | seq p q | alt p q => p.repeats || q.repeats
  | named _ p => p.repeats
  | _ => false

theorem mem_of_fits {p : Pattern} (hp : p.repeats = false) {here next : Place} {gs gs' : Groups}
    (h : p.Fits here gs next gs') :
    (∀ c ∈ next.rest, c ∈ here.rest) ∧ ∀ g ∈ gs', g ∈ gs ∨ ∀ c ∈ g.2, c ∈ here.rest := by
  induction p generalizing here gs next gs' with
  | nothing => obtain ⟨rfl, rfl⟩ := h; exact ⟨fun _ hc => hc, fun _ hg => .inl hg⟩
  | one accepts =>
    obtain ⟨c, _, hrest, _, rfl⟩ := h
    exact ⟨fun d hd => by rw [hrest]; exact mem_cons_of_mem c hd, fun _ hg => .inl hg⟩
  | seq p q ihp ihq =>
    obtain ⟨hp, hq⟩ := Bool.or_eq_false_iff.mp hp
    obtain ⟨mid, gm, hfirst, hsecond⟩ := h
    obtain ⟨hmid, hgm⟩ := ihp hp hfirst
    obtain ⟨hnext, hgs⟩ := ihq hq hsecond
    refine ⟨fun c hc => hmid c (hnext c hc), fun g hg => ?_⟩
    rcases hgs g hg with hg | hg
    · exact hgm g hg
    · exact .inr fun c hc => hmid c (hg c hc)
  | alt p q ihp ihq =>
    obtain ⟨hp, hq⟩ := Bool.or_eq_false_iff.mp hp
    rcases h with h | h
    · exact ihp hp h
    · exact ihq hq h
  | many accepts | few accepts =>
    obtain ⟨w, _, hrest, _, rfl⟩ := h
    exact ⟨fun c hc => by rw [hrest]; exact mem_append_right w hc, fun _ hg => .inl hg⟩
  | repeated p => cases hp
  | named name p ih =>
    obtain ⟨gm, hfit, rfl⟩ := h
    obtain ⟨hnext, hgm⟩ := ih hp hfit
    refine ⟨hnext, fun g hg => ?_⟩
    rcases mem_cons.mp hg with rfl | hg
    · exact .inr fun c hc => mem_of_mem_take hc
    · exact hgm g hg
  | start | finish | ended => obtain ⟨_, rfl, rfl⟩ := h; exact ⟨fun _ hc => hc, fun _ hg => .inl hg⟩
  | edge => obtain ⟨_, rfl, rfl⟩ := h; exact ⟨fun _ hc => hc, fun _ hg => .inl hg⟩

theorem mem_of_group {p : Pattern} (hp : p.repeats = false) {m : Match} (h : p.match? s = some m)
    (name : String) : ∀ c ∈ (m.group name).toList, c ∈ s.toList := by
  obtain ⟨next, hfit⟩ := fits_of_match? h
  obtain ⟨_, hgroups⟩ := mem_of_fits hp hfit
  intro c hc
  rw [Match.group, Match.group?] at hc
  cases hfind : m.groups.find? fun g => g.1 == name with
  | none =>
    rw [hfind] at hc
    cases hc
  | some g =>
    rw [hfind, Option.map_some, Option.getD_some, String.toList_ofList] at hc
    rcases hgroups g (mem_of_find?_eq_some hfind) with hnil | hg
    · cases hnil
    · exact hg c hc

end Loom.Text.Pattern

namespace Loom.Outline

open Loom.Text Loom.Text.Pattern List

/-! ### Lines -/

def IsOneLine (s : String) : Prop := ∀ c ∈ s.toList, isLineEnd c = false

instance : DecidablePred IsOneLine := fun s => decidableBAll (isLineEnd · = false) s.toList

theorem IsOneLine.lineFeed_not_mem (h : IsOneLine s) : '\n' ∉ s.toList :=
  fun hmem => absurd (h _ hmem) (by decide)

theorem IsOneLine.onLine (h : IsOneLine s) : ∀ c ∈ s.toList, onLine c := by
  intro c hc
  rw [Pattern.onLine, bne_iff_ne]
  rintro rfl
  exact h.lineFeed_not_mem hc

theorem isOneLine_append {t : String} (hs : IsOneLine s) (ht : IsOneLine t) :
    IsOneLine (s ++ t) := by
  intro c hc
  rw [String.toList_append] at hc
  exact (mem_append.mp hc).elim (hs c) (ht c)

theorem isOneLine_of_mem {t : String} (hs : IsOneLine s) (h : ∀ c ∈ t.toList, c ∈ s.toList) :
    IsOneLine t :=
  fun c hc => hs c (h c hc)

theorem isBlank_of_isLineEnd {c : Char} (h : isLineEnd c) : isBlank c := by
  simp only [isLineEnd, Bool.or_eq_true, Bool.and_eq_true, decide_eq_true_eq, beq_iff_eq] at h
  rcases h with (((h | h) | rfl) | rfl) | rfl
  · rw [isBlank, if_pos (by omega)]
    simp
    omega
  · rw [isBlank, if_pos (by omega)]
    simp
    omega
  all_goals decide +kernel

theorem isOneLine_of_plain (h : ∀ c ∈ s.toList, isBlank c = false) : IsOneLine s := by
  intro c hc
  by_contra hend
  have hblank := isBlank_of_isLineEnd (Bool.not_eq_false _ ▸ hend)
  rw [h c hc] at hblank
  cases hblank

theorem isOneLine_strip (h : IsOneLine s) : IsOneLine (strip s) := by
  obtain ⟨after, _, heq⟩ := exists_eq_strip s
  refine isOneLine_of_mem h fun c hc => ?_
  rw [heq]
  simp [hc]

theorem isOneLine_stripEnd (h : IsOneLine s) : IsOneLine (stripEnd s) := by
  refine isOneLine_of_mem h fun c hc => ?_
  rw [stripEnd, String.toList_ofList] at hc
  rw [← dropEndWhile_append isBlank s.toList]
  exact mem_append_left _ hc

theorem isOneLine_collapse (h : IsOneLine s) : IsOneLine (collapse s) := by
  intro c hc
  rw [toList_collapse] at hc
  rcases mem_squeezeFrom hc with rfl | hc
  · decide
  · exact isOneLine_strip h c hc

theorem isOneLine_lower (h : IsOneLine s) : IsOneLine (lower s) := by
  intro c hc
  by_contra hend
  rw [Bool.not_eq_false] at hend
  rw [lower, String.toList_ofList] at hc
  rw [h c ((mem_lowerFrom hc).2 (isBlank_of_isLineEnd hend))] at hend
  cases hend

theorem isOneLine_partition {d : Char} {sep : String} (hsep : sep.toList = [d]) (h : IsOneLine s) :
    IsOneLine (partition s sep).1 ∧ ∀ t, (partition s sep).2 = some t → IsOneLine t := by
  by_cases hd : d ∈ s.toList
  · obtain ⟨u, v, hs, hu⟩ := eq_append_cons_of_mem hd
    rw [partition_of_mem hsep hs hu]
    refine ⟨isOneLine_of_mem h fun c hc => ?_, fun t ht => isOneLine_of_mem h fun c hc => ?_⟩
    · rw [String.toList_ofList] at hc
      rw [hs]
      simp [hc]
    · rw [← Option.some_inj.mp ht, String.toList_ofList] at hc
      rw [hs]
      simp [hc]
  · rw [partition_of_not_mem hsep hd]
    exact ⟨h, nofun⟩

theorem isOneLine_normalStep (h : IsOneLine s) : IsOneLine (normalStep s) := by
  have hverbs : ∀ v ∈ capitalVerbs, IsOneLine v.2 := by decide +kernel
  obtain ⟨_, htail⟩ := @isOneLine_partition _ ' ' " " rfl (isOneLine_collapse h)
  cases hcut : partition (collapse s) " " with
  | mk head tail =>
    rw [hcut] at htail
    unfold normalStep
    simp only [hcut]
    split
    · rename_i verb hfind
      have hverb := hverbs _ (mem_of_find?_eq_some hfind)
      split
      · rename_i t
        split
        · exact hverb
        · exact isOneLine_append (isOneLine_append hverb (by decide)) (htail t rfl)
      · exact hverb
    · exact isOneLine_collapse h

theorem isOneLine_normalBullet {number rest : String} (hnumber : IsOneLine number)
    (hrest : IsOneLine rest) : ∀ s ∈ (normalBullet number rest).1, IsOneLine s := by
  have htext := isOneLine_collapse hrest
  have hbullet : IsOneLine (stepIndent ++ number ++ ". ") :=
    isOneLine_append (isOneLine_append (by decide) hnumber) (by decide)
  have hverb : IsOneLine (stepIndent ++ number ++ ". " ++ "Repeat") :=
    isOneLine_append hbullet (by decide)
  have hheader : ∀ t, IsOneLine t → IsOneLine (headerIndent ++ normalHeader t) := fun t ht =>
    isOneLine_append (by decide) (isOneLine_lower (isOneLine_collapse ht))
  rw [normalBullet]
  split
  · refine forall_mem_cons.mpr ⟨hverb, forall_mem_singleton.mpr (hheader _ ?_)⟩
    obtain ⟨_, htail⟩ := @isOneLine_partition _ ' ' " " rfl htext
    cases hcut : (partition (collapse rest) " ").2 with
    | none => exact isOneLine_strip (s := "") (by decide)
    | some t => exact isOneLine_strip (htail t hcut)
  · split
    · exact forall_mem_cons.mpr ⟨hverb, forall_mem_singleton.mpr (hheader _ htext)⟩
    · exact forall_mem_singleton.mpr (isOneLine_append hbullet (isOneLine_normalStep htext))

theorem isOneLine_normalFlowLine (part : Part) (h : IsOneLine line) :
    ∀ s ∈ (normalFlowLine part line).1, IsOneLine s := by
  have hcollapsed : ∀ indent : String, IsOneLine indent →
      ∀ s ∈ [indent ++ collapse line], IsOneLine s := fun indent hindent =>
    forall_mem_singleton.mpr (isOneLine_append hindent (isOneLine_collapse h))
  unfold normalFlowLine
  cases hmatch : bulletLine.match? line with
  | some m =>
    exact isOneLine_normalBullet (isOneLine_of_mem h (mem_of_group rfl hmatch "number"))
      (isOneLine_of_mem h (mem_of_group rfl hmatch "rest"))
  | none =>
    dsimp only
    split
    · exact forall_mem_singleton.mpr (by decide)
    · split
      · exact forall_mem_singleton.mpr
          (isOneLine_append (by decide) (isOneLine_lower (isOneLine_collapse h)))
      · split
        · exact forall_mem_singleton.mpr (by decide)
        · cases part with
          | outside | flow => exact hcollapsed stepIndent (by decide)
          | body => exact hcollapsed bodyIndent (by decide)

theorem isOneLine_normalSection (h : IsOneLine line) : IsOneLine (normalSection line) := by
  rw [normalSection]
  split
  · exact isOneLine_stripEnd h
  · rename_i m hmatch
    have hrest := isOneLine_collapse (isOneLine_of_mem h (mem_of_group rfl hmatch "rest"))
    have hletter : IsOneLine (m.group "letter" ++ ". ") :=
      isOneLine_append (isOneLine_of_mem h (mem_of_group rfl hmatch "letter")) (by decide)
    obtain ⟨hkey, hvalue⟩ := @isOneLine_partition _ ':' ":" rfl hrest
    dsimp only
    split
    · rename_i key value hcut
      rw [hcut] at hkey hvalue
      exact isOneLine_append (isOneLine_append (isOneLine_append hletter (isOneLine_strip hkey))
        (by decide)) (isOneLine_strip (hvalue value rfl))
    · exact isOneLine_append hletter hrest

theorem isOneLine_normalLine (part : Part) (h : IsOneLine line) :
    ∀ s ∈ (normalLine part line).1, IsOneLine s := by
  have hend := isOneLine_stripEnd h
  unfold normalLine
  dsimp only
  split
  · exact forall_mem_singleton.mpr (by decide)
  · split
    · exact forall_mem_singleton.mpr (isOneLine_normalSection hend)
    · cases part with
      | outside => exact forall_mem_singleton.mpr hend
      | flow => exact isOneLine_normalFlowLine .flow hend
      | body => exact isOneLine_normalFlowLine .body hend

end Loom.Outline
