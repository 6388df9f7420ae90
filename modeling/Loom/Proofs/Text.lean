import Loom.Text.Slice

/-!
# Text That Is Read as It Is

Lines are stripped again and again on their way through an outline. Stripping a
text that has no blank at either end does nothing, and stripping leaves such a
text, so that the times after the first can be ignored. In the same way a text with
plain line ends is read as it is.
-/

namespace Loom.Text

open List

variable {p : Char → Bool} {s : List Char}

/-- A text that neither starts nor ends with a character of a class. -/
structure Trimmed (p : Char → Bool) (s : List Char) : Prop where
  first : ∀ c, s.head? = some c → p c = false
  last : ∀ c, s.getLast? = some c → p c = false

theorem trimmed_iff : Trimmed p s ↔ s.head?.all (!p ·) ∧ s.getLast?.all (!p ·) := by
  simp only [Option.all_eq_true, Bool.not_eq_true']
  exact ⟨fun h => ⟨h.first, h.last⟩, fun h => ⟨h.1, h.2⟩⟩

instance : Decidable (Trimmed p s) := decidable_of_iff _ trimmed_iff.symm

theorem dropWhile_of_head (h : ∀ c, s.head? = some c → p c = false) : s.dropWhile p = s := by
  cases s with
  | nil => rfl
  | cons c cs => exact dropWhile_cons_of_neg (by simp [h c rfl])

theorem head_dropWhile (p : Char → Bool) (s : List Char) :
    ∀ c, (s.dropWhile p).head? = some c → p c = false := by
  intro c hc
  have h := head?_dropWhile_not p s
  rwa [hc] at h

theorem dropEndWhile_of_last (h : ∀ c, s.getLast? = some c → p c = false) :
    dropEndWhile p s = s := by
  rw [dropEndWhile, dropWhile_of_head, reverse_reverse]
  intro c hc
  rw [head?_reverse] at hc
  exact h c hc

theorem last_dropEndWhile (p : Char → Bool) (s : List Char) :
    ∀ c, (dropEndWhile p s).getLast? = some c → p c = false := by
  intro c hc
  rw [dropEndWhile, getLast?_reverse] at hc
  exact head_dropWhile p s.reverse c hc

theorem dropEndWhile_append_of_last (h : ∀ c, s.getLast? = some c → p c = false)
    (more : List Char) : dropEndWhile p (s ++ more) = s ++ dropEndWhile p more := by
  have hs : s.reverse.dropWhile p = s.reverse :=
    dropWhile_of_head fun c hc => h c (by rwa [head?_reverse] at hc)
  rw [dropEndWhile, dropEndWhile, reverse_append, dropWhile_append]
  -- From the end, the run goes on into `s` only if all of `more` is in the class.
  split
  · rename_i hempty
    rw [hs, List.isEmpty_iff.mp hempty, reverse_reverse, reverse_nil, append_nil]
  · rw [reverse_append, reverse_reverse]

theorem dropEndWhile_append (p : Char → Bool) (s : List Char) :
    dropEndWhile p s ++ (s.reverse.takeWhile p).reverse = s := by
  rw [dropEndWhile, ← reverse_append, takeWhile_append_dropWhile, reverse_reverse]

theorem stripChars_of_trimmed (h : Trimmed p s) : stripChars p s = s := by
  rw [stripChars, dropWhile_of_head h.first, dropEndWhile_of_last h.last]

theorem trimmed_stripChars (p : Char → Bool) (s : List Char) : Trimmed p (stripChars p s) := by
  refine ⟨?_, last_dropEndWhile p _⟩
  intro c hc
  refine head_dropWhile p s c ?_
  rw [← dropEndWhile_append p (s.dropWhile p)]
  rw [stripChars] at hc
  rw [head?_append, hc, Option.some_or]

theorem strip_of_trimmed {s : String} (h : Trimmed isBlank s.toList) : strip s = s := by
  rw [strip, stripWhere, stripChars_of_trimmed h, String.ofList_toList]

theorem trimmed_strip (s : String) : Trimmed isBlank (strip s).toList := by
  rw [strip, stripWhere, String.toList_ofList]
  exact trimmed_stripChars isBlank s.toList

theorem strip_strip (s : String) : strip (strip s) = strip s := strip_of_trimmed (trimmed_strip s)

/-! ### Line ends -/

theorem unifyLineEnds_of_plain {cs : List Char} (h : '\r' ∉ cs) : unifyLineEnds cs = cs := by
  fun_induction unifyLineEnds cs with
  | case1 => rfl
  | case2 cs ih => exact absurd mem_cons_self h
  | case3 c cs hpair ih =>
    rw [mem_cons, not_or] at h
    rw [ih h.2, if_neg (by rw [beq_iff_eq]; exact fun hc => h.1 hc.symm)]

theorem readLines_of_plain {text : String} (h : '\r' ∉ text.toList) : readLines text = text := by
  rw [readLines, unifyLineEnds_of_plain h, String.ofList_toList]

end Loom.Text
