import Loom.Proofs.SmallLetters
import Loom.Proofs.Tagged
import Loom.Slug

/-!
# Slugs as a Normal Form

A slug does not depend on the context of a character, although small letters do: what it keeps of
one is decided by its small form alone. So texts that agree but for the case of ASCII letters and
the length of runs of blanks have the same slug. What comes out has the form of a slug, and a
text of that form is its own slug.
-/

namespace Loom

open List Loom.Text
open String (ofList toList_ofList)

/-- What a slug keeps of a character. -/
def slugForm (c : Char) : List Char := (lowerForm c).filter isSlugChar

structure IsSlug (cs : List Char) : Prop where
  chars : ∀ c ∈ cs, isSlugChar c = true
  start : ∃ c, cs.head? = some c ∧ isSlugStart c = true
  length_le : cs.length ≤ slugLimit

structure IsGap (cs : List Char) : Prop where
  blank : cs.all isBlank = true
  ne_nil : cs ≠ []

/-- Texts that agree but for the case of ASCII letters and the length of gaps. -/
inductive SameWords : List Char → List Char → Prop where
  | nil : SameWords [] []
  | char {c d cs ds} (h : c.toLower = d.toLower) (hs : SameWords cs ds) :
    SameWords (c :: cs) (d :: ds)
  | gap {u v cs ds} (hu : IsGap u) (hv : IsGap v) (hs : SameWords cs ds) :
    SameWords (u ++ cs) (v ++ ds)

variable {cs ds : List Char}

/-! ### Characters -/

theorem forms_of_ascii {c : Char} (h : c.toNat < 128) :
    (isBlank c.toLower = isBlank c ∧ slugForm c.toLower = slugForm c) ∧
    (isSlugChar c = true → isBlank c = false ∧ slugForm c = [c]) := by
  obtain ⟨n, rfl⟩ : ∃ n : Fin 128, Char.ofNat n = c := ⟨⟨c.toNat, h⟩, Char.ofNat_toNat c⟩
  clear h
  revert n
  decide +kernel

theorem forms_toLower (c : Char) :
    isBlank c.toLower = isBlank c ∧ slugForm c.toLower = slugForm c := by
  by_cases hascii : c.toNat < 128
  · exact (forms_of_ascii hascii).1
  · have hsame : c.toLower = c := by
      refine dif_neg ?_
      rintro ⟨_, h⟩
      exact hascii (Nat.lt_of_le_of_lt h (by decide))
    rw [hsame]
    exact ⟨rfl, rfl⟩

theorem of_isSlugChar {c : Char} (h : isSlugChar c = true) :
    isBlank c = false ∧ slugForm c = [c] := by
  refine (forms_of_ascii ?_).2 h
  simp only [isSlugChar, Bool.or_eq_true, Bool.and_eq_true, decide_eq_true_eq, beq_iff_eq] at h
  rcases h with ((⟨_, h⟩ | ⟨_, h⟩) | rfl) | rfl
  · exact Nat.lt_of_le_of_lt h (by decide)
  · exact Nat.lt_of_le_of_lt h (by decide)
  · decide
  · decide

theorem filter_lowerBetween (before after : List Char) (c : Char) :
    (lowerBetween before c after).filter isSlugChar = slugForm c := by
  rw [lowerBetween]
  split
  · rename_i hsigma
    rw [beq_iff_eq.mp hsigma]
    split <;> decide +kernel
  · rfl

/-! ### Words and gaps -/

theorem hyphenate_append {word : List Char} (h : ∀ c ∈ word, isBlank c = false) (inRun : Bool)
    (cs : List Char) :
    hyphenate inRun (word ++ cs) = word ++ hyphenate (inRun && word.isEmpty) cs := by
  induction word generalizing inRun with
  | nil => rw [nil_append, isEmpty_nil, Bool.and_true]; rfl
  | cons c word ih =>
    obtain ⟨hc, hword⟩ := forall_mem_cons.mp h
    rw [cons_append, hyphenate, hc, isEmpty_cons, Bool.and_false]
    exact congrArg (c :: ·) (ih hword false)

theorem hyphenate_gap {u : List Char} (h : IsGap u) (inRun : Bool) (cs : List Char) :
    hyphenate inRun (u ++ cs) = (if inRun then [] else ['-']) ++ hyphenate true cs := by
  obtain ⟨hblank, hne⟩ := h
  induction u generalizing inRun with
  | nil => exact absurd rfl hne
  | cons c u ih =>
    obtain ⟨hc, hu⟩ := Bool.and_eq_true_iff.mp hblank
    have hrest : hyphenate true (u ++ cs) = hyphenate true cs := by
      cases u with
      | nil => rfl
      | cons d u => exact ih true hu (cons_ne_nil d u)
    rw [cons_append, hyphenate, if_pos hc, hrest]
    cases inRun <;> rfl

theorem filter_hyphenate_lowerFrom (inRun : Bool) (before cs : List Char) :
    (hyphenate inRun (lowerFrom before cs)).filter isSlugChar =
      (hyphenate inRun cs).flatMap slugForm := by
  induction cs generalizing inRun before with
  | nil => rfl
  | cons c cs ih =>
    rw [lowerFrom]
    cases hc : isBlank c with
    | true =>
      rw [lowerBetween_of_isBlank hc, singleton_append, hyphenate, hyphenate, if_pos hc, if_pos hc]
      cases inRun with
      | true => exact ih true (c :: before)
      | false => exact congrArg ('-' :: ·) (ih true (c :: before))
    | false =>
      have hform : ∀ d ∈ lowerBetween before c cs, isBlank d = false :=
        fun d hd => (mem_lowerBetween hd).2.trans hc
      have hne : (lowerBetween before c cs).isEmpty = false :=
        isEmpty_eq_false_iff.mpr (lowerBetween_ne_nil before c cs)
      rw [hyphenate_append hform, hne, Bool.and_false, filter_append, filter_lowerBetween, ih,
        hyphenate, hc]
      rfl

theorem SameWords.flatMap_slugForm (h : SameWords cs ds) (inRun : Bool) :
    (hyphenate inRun cs).flatMap slugForm = (hyphenate inRun ds).flatMap slugForm := by
  induction h generalizing inRun with
  | nil => rfl
  | @char c d _ _ h _ ih =>
    have hblank : isBlank c = isBlank d := by rw [← (forms_toLower c).1, h, (forms_toLower d).1]
    have hform : slugForm c = slugForm d := by rw [← (forms_toLower c).2, h, (forms_toLower d).2]
    rw [hyphenate, hyphenate, hblank]
    cases isBlank d <;> cases inRun <;> simp [ih, hform]
  | gap hu hv _ ih =>
    rw [hyphenate_gap hu, hyphenate_gap hv, flatMap_append, flatMap_append, ih]

/-! ### The form of a slug -/

theorem slug_eq (s : String) : slug s = ofList
    ((slugChars ((hyphenate false (strip s).toList).flatMap slugForm)).take slugLimit) := by
  rw [slug, lower, toList_ofList, filter_hyphenate_lowerFrom]

theorem isSlug_slugChars (h : ∀ c ∈ cs, isSlugChar c = true) :
    IsSlug ((slugChars cs).take slugLimit) := by
  have hlen : ((slugChars cs).take slugLimit).length ≤ slugLimit := length_take_le _ _
  cases cs with
  | nil => exact ⟨forall_mem_singleton.mpr rfl, ⟨'_', rfl, rfl⟩, hlen⟩
  | cons c rest =>
    rw [slugChars] at hlen ⊢
    split at hlen
    · rename_i hc
      rw [if_pos hc]
      exact ⟨fun d hd => h d (mem_of_mem_take hd), ⟨c, rfl, hc⟩, hlen⟩
    · rename_i hc
      rw [if_neg hc]
      refine ⟨fun d hd => ?_, ⟨'_', rfl, rfl⟩, hlen⟩
      rcases mem_cons.mp (mem_of_mem_take hd) with rfl | hd
      · rfl
      · exact h d hd

theorem slug_of_isSlug {s : String} (h : IsSlug s.toList) : slug s = s := by
  obtain ⟨c, hhead, hstart⟩ := h.start
  have hblank : ∀ d ∈ s.toList, isBlank d = false := fun d hd => (of_isSlugChar (h.chars d hd)).1
  have htrim : Trimmed isBlank s.toList :=
    ⟨fun d hd => hblank d (mem_of_head? hd), fun d hd => hblank d (mem_of_getLast? hd)⟩
  have hhyphen := hyphenate_append hblank false []
  have hform : s.toList.flatMap slugForm = s.toList := by
    rw [flatMap_congr fun d hd => (of_isSlugChar (h.chars d hd)).2]
    exact flatMap_singleton' _
  have hchars : slugChars s.toList = s.toList := by
    obtain ⟨rest, hrest⟩ := head?_eq_some_iff.mp hhead
    rw [hrest]
    exact if_pos hstart
  rw [append_nil, hyphenate, append_nil] at hhyphen
  rw [slug_eq, strip_of_trimmed htrim, hhyphen, hform, hchars, take_of_length_le h.length_le,
    String.ofList_toList]

/-- A slug is a normal form of names: it has the form of a slug and is its own slug, and names have
    the same slug if they agree but for the blanks around them, the length of the gaps in them and
    the case of ASCII letters. -/
theorem slug_normal (s : String) : IsSlug (slug s).toList ∧ slug (slug s) = slug s ∧
    (∀ u v, (∀ c ∈ u ++ v, isBlank c = true) → slug (ofList (u ++ (s.toList ++ v))) = slug s) ∧
    ∀ t, SameWords (strip s).toList (strip t).toList → slug s = slug t := by
  have hform : IsSlug (slug s).toList := by
    rw [slug, toList_ofList]
    exact isSlug_slugChars fun c hc => (mem_filter.mp hc).2
  refine ⟨hform, slug_of_isSlug hform, fun u v h => ?_, fun t h => ?_⟩
  · obtain ⟨hu, hv⟩ := forall_mem_append.mp h
    rw [slug, Outline.strip_of_blanks toList_ofList hu hv, String.ofList_toList, slug]
  · rw [slug_eq, slug_eq, h.flatMap_slugForm]

theorem slug_normal_respaced : slug " A  b" = slug "a\tB\n" :=
  (slug_normal _).2.2.2 _ (.char rfl (.gap (u := [' ', ' ']) (v := ['\t']) ⟨rfl, by decide⟩ ⟨rfl, by decide⟩
    (.char rfl .nil)))

end Loom
