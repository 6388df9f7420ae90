import Loom.Text.Letter
import Loom.Text.Slice
import Mathlib.Data.List.Basic

/-!
# Small Letters

The small form of a text is made character by character, from a table of runs. What is known
of it here is what the table says: no blank has a small form other than itself and no letter
a blank one, and a small form is its own small form. The runs are checked against each other
and not letter by letter.
-/

namespace Loom.Text

open List CaseRun

variable {c d : Char} {before cs : List Char}

/-- Where the counterparts of a run begin. -/
def CaseRun.image (r : CaseRun) : Nat := Int.toNat (r.first + r.distance)

/-- The counterparts of a run are not in another run: they come before it or after it, or
    between its letters. -/
def CaseRun.missedBy (r q : CaseRun) : Bool :=
  Nat.blt (r.image + (r.last - r.first)) q.first || Nat.blt q.last r.image ||
    ((Nat.beq r.stride 2 || Nat.beq r.first r.last) && Nat.beq q.stride 2 &&
      Nat.beq ((r.image + q.first) % 2) 1)

def CaseRun.keepsWords (r : CaseRun) : Bool :=
  (wordRanges.any fun b => Nat.ble b.1 r.first && Nat.ble r.last b.2) ||
    ((List.range (r.last - r.first + 1)).all fun k => Nat.ble 1 (k % r.stride) ||
      wordRanges.any fun b => Nat.ble b.1 (r.first + k) && Nat.ble (r.first + k) b.2) ||
    wordRanges.all fun b => Nat.blt b.2 r.image ||
      Nat.blt (r.image + (r.last - r.first)) b.1

/-- A character that is its own small form, wherever it stands. -/
def isSmall (c : Char) : Bool := lowerForm c == [c] && c != 'Σ'

/-! ### What the table says -/

/-- The counterparts are valid, and none of them is a blank or the letter with two small
    characters. No letter of a run is a blank. -/
theorem lowerRuns_images : ∀ r ∈ lowerRuns, 0 ≤ r.first + r.distance ∧ 107 ≤ r.image ∧
      (128 ≤ r.image ∨ r.first = 0x212A ∧ r.last = 0x212A) ∧
      (r.image + (r.last - r.first) < 0xD800 ∨
        0xDFFF < r.image ∧ r.image + (r.last - r.first) < 0x110000) ∧
      (r.image + (r.last - r.first) < 0x130 ∨ 0x130 < r.image) ∧
      ∀ b ∈ blankRanges, (b.2 < r.image ∨ r.image + (r.last - r.first) < b.1) ∧
        (b.2 < r.first ∨ r.last < b.1) := by
  decide +kernel

theorem lowerRuns_ascii (r : CaseRun) (hr : r ∈ lowerRuns) :
    128 ≤ r.image ∨ r.first = 0x212A ∧ r.last = 0x212A :=
  (lowerRuns_images r hr).2.2.1

/-- The counterparts of a run are in no run, and word characters only where its letters
    are. -/
theorem lowerRuns_apart : (lowerRuns.all fun r =>
    (Nat.blt r.image 128 || lowerRuns.all r.missedBy) && r.keepsWords) := by
  decide +kernel

theorem lowerChar_apart : lowerChar 'Σ' ≠ 'Σ' ∧
    (isSmall (lowerChar '\u212A') ∧ isWord '\u212A') ∧
    (isBlank 'Σ' = false ∧ isBlank '\u0130' = false) ∧
    (['ς', 'σ', 'i', '\u0307'].all fun d => isSmall d && !isBlank d) := by
  decide +kernel

theorem exists_lowerChar (hc : 128 ≤ c.toNat) (h : lowerChar c ≠ c) :
    ∃ r ∈ lowerRuns, r.holds c.toNat ∧
      (lowerChar c).toNat = r.image + (c.toNat - r.first) := by
  rw [lowerChar, if_neg (by omega), counterpart?] at h ⊢
  cases hfind : lowerRuns.find? fun r => r.holds c.toNat with
  | none =>
    rw [hfind] at h
    exact absurd rfl h
  | some r =>
    have hr := mem_of_find?_eq_some hfind
    have hholds := find?_some hfind
    refine ⟨r, hr, hholds, ?_⟩
    simp only [holds, Bool.and_eq_true, decide_eq_true_eq] at hholds
    obtain ⟨hpos, _, _, hvalid, _⟩ := lowerRuns_images r hr
    have himage : (r.image : Int) = r.first + r.distance := Int.toNat_of_nonneg hpos
    have hcode : Int.toNat (c.toNat + r.distance) = r.image + (c.toNat - r.first) := by omega
    have hchar : (r.image + (c.toNat - r.first)).isValidChar := by
      rcases hvalid with hvalid | ⟨hlow, hhigh⟩
      · exact .inl (by omega)
      · exact .inr ⟨by omega, by omega⟩
    rw [Option.map_some, Option.getD_some, hcode, Char.ofNat, dif_pos hchar]
    rfl

theorem toLower_ascii : ∀ n : Fin 128, isSmall (Char.ofNat n).toLower ∧
    isBlank (Char.ofNat n).toLower = isBlank (Char.ofNat n) ∧
    (isBlank (Char.ofNat n) → (Char.ofNat n).toLower = Char.ofNat n) ∧
    isWord (Char.ofNat n).toLower = isWord (Char.ofNat n) ∧
    ((Char.ofNat n).toLower.isAlpha → (Char.ofNat n).isAlpha) := by
  decide +kernel

theorem lowerChar_ascii (hc : c.toNat < 128) : isSmall (lowerChar c) ∧
    isBlank (lowerChar c) = isBlank c ∧ (isBlank c → lowerChar c = c) ∧
    isWord (lowerChar c) = isWord c ∧ ((lowerChar c).isAlpha → c.isAlpha) := by
  have h := toLower_ascii ⟨c.toNat, hc⟩
  rwa [Char.ofNat_toNat, show c.toLower = lowerChar c from (if_pos hc).symm] at h

/-! ### Letters -/

theorem CaseRun.holds_of_missedBy {r q : CaseRun} {n : Nat} (h : r.missedBy q)
    (hn : r.holds n) : q.holds (r.image + (n - r.first)) = false := by
  simp only [missedBy, Bool.or_eq_true, Bool.and_eq_true, Nat.blt_eq, Nat.beq_eq] at h
  simp only [holds, Bool.and_eq_true, decide_eq_true_eq, beq_iff_eq] at hn
  rw [← Bool.not_eq_true]
  simp only [holds, Bool.and_eq_true, decide_eq_true_eq, beq_iff_eq, not_and]
  rintro ⟨hfirst, hlast⟩ hstride
  rcases h with (h | h) | ⟨⟨hr | hr, hq⟩, hodd⟩
  · omega
  · omega
  · rw [hr] at hn
    rw [hq] at hstride
    omega
  · rw [hq] at hstride
    omega

theorem isSmall_lowerChar (hdot : c ≠ '\u0130') (hsigma : c ≠ 'Σ') :
    isSmall (lowerChar c) := by
  by_cases hascii : c.toNat < 128
  · exact (lowerChar_ascii hascii).1
  by_cases hsame : lowerChar c = c
  · rw [hsame, isSmall, lowerForm, if_neg (by simpa using hdot), hsame]
    simpa using hsigma
  obtain ⟨r, hr, hholds, hcode⟩ := exists_lowerChar (by omega) hsame
  have hrun := hholds
  simp only [holds, Bool.and_eq_true, decide_eq_true_eq] at hrun
  rcases lowerRuns_ascii r hr with himage | hkelvin
  · obtain ⟨_, _, _, _, hdotted, _⟩ := lowerRuns_images r hr
    obtain ⟨hmissed, _⟩ := Bool.and_eq_true_iff.mp (all_eq_true.mp lowerRuns_apart r hr)
    rw [Bool.or_eq_true, Nat.blt_eq, all_eq_true] at hmissed
    have hmissed := hmissed.resolve_left (by omega)
    have hagain : lowerChar (lowerChar c) = lowerChar c := by
      rw [lowerChar, if_neg (by omega), counterpart?, find?_eq_none.mpr ?_]
      · rfl
      · intro q hq
        rw [hcode, holds_of_missedBy (hmissed q hq) hholds]
        exact Bool.false_ne_true
    have hne : lowerChar c ≠ '\u0130' := by
      intro h
      rw [h] at hcode
      change 0x130 = _ at hcode
      omega
    have hne' : lowerChar c ≠ 'Σ' := by
      intro h
      rw [h] at hagain
      exact lowerChar_apart.1 hagain
    rw [isSmall, lowerForm, if_neg (by simpa using hne), hagain]
    simpa using hne'
  · obtain rfl : c = '\u212A' := Char.toNat_inj.mp (show c.toNat = 0x212A by omega)
    exact lowerChar_apart.2.1.1

theorem isBlank_lowerChar (c : Char) :
    isBlank (lowerChar c) = isBlank c ∧ (isBlank c → lowerChar c = c) := by
  by_cases hascii : c.toNat < 128
  · obtain ⟨_, hsame, hblank, _⟩ := lowerChar_ascii hascii
    exact ⟨hsame, hblank⟩
  by_cases hsame : lowerChar c = c
  · exact ⟨by rw [hsame], fun _ => hsame⟩
  obtain ⟨r, hr, hholds, hcode⟩ := exists_lowerChar (by omega) hsame
  simp only [holds, Bool.and_eq_true, decide_eq_true_eq] at hholds
  obtain ⟨_, hlow, _, _, _, hblanks⟩ := lowerRuns_images r hr
  have hnot : ∀ d : Char, 32 < d.toNat → (∀ b ∈ blankRanges, b.2 < d.toNat ∨ d.toNat < b.1) →
      isBlank d = false := by
    intro d hd hranges
    rw [isBlank]
    split
    · simp
      omega
    · rw [Ranges.holds, any_eq_false]
      intro b hb
      have := hranges b hb
      simp
      omega
  have hc : isBlank c = false := hnot c (by omega) fun b hb => by
    have := (hblanks b hb).2
    omega
  have hd : isBlank (lowerChar c) = false := hnot _ (by omega) fun b hb => by
    have := (hblanks b hb).1
    omega
  rw [hc, hd]
  exact ⟨rfl, fun h => absurd h Bool.false_ne_true⟩

theorem isWord_lowerChar (h : isWord c = false) : isWord (lowerChar c) = false := by
  by_cases hascii : c.toNat < 128
  · obtain ⟨_, _, _, hword, _⟩ := lowerChar_ascii hascii
    rw [hword, h]
  by_cases hsame : lowerChar c = c
  · rwa [hsame]
  obtain ⟨r, hr, hholds, hcode⟩ := exists_lowerChar (by omega) hsame
  simp only [holds, Bool.and_eq_true, decide_eq_true_eq, beq_iff_eq] at hholds
  have hranges := h
  rw [isWord, if_neg hascii, Ranges.holds, any_eq_false] at hranges
  simp only [Bool.and_eq_true, decide_eq_true_eq, not_and, Nat.not_le] at hranges
  obtain ⟨_, hwords⟩ := Bool.and_eq_true_iff.mp (all_eq_true.mp lowerRuns_apart r hr)
  simp only [keepsWords, Bool.or_eq_true, any_eq_true, all_eq_true, Bool.and_eq_true, Nat.ble_eq,
    Nat.blt_eq, mem_range] at hwords
  rcases hwords with (⟨b, hb, hfirst, hlast⟩ | hletters) | himage
  · have := hranges b hb
    omega
  · rcases hletters (c.toNat - r.first) (by omega) with hstride | ⟨b, hb, hfirst, hlast⟩
    · omega
    · have := hranges b hb
      omega
  · rcases lowerRuns_ascii r hr with hhigh | hkelvin
    · rw [isWord, if_neg (by omega), Ranges.holds, any_eq_false]
      intro b hb
      have := himage b hb
      simp only [Bool.and_eq_true, decide_eq_true_eq, not_and, Nat.not_le]
      omega
    · obtain rfl : c = '\u212A' := Char.toNat_inj.mp (show c.toNat = 0x212A by omega)
      rw [lowerChar_apart.2.1.2] at h
      cases h

/-! ### Texts -/

theorem lowerBetween_of_ne (hdot : c ≠ '\u0130') (hsigma : c ≠ 'Σ') (before after : List Char) :
    lowerBetween before c after = [lowerChar c] := by
  rw [lowerBetween, if_neg (by simpa using hsigma), lowerForm, if_neg (by simpa using hdot)]

theorem lowerBetween_of_isBlank (hc : isBlank c) (before after : List Char) :
    lowerBetween before c after = [c] := by
  have hne : ∀ d : Char, isBlank d = false → c ≠ d := by
    rintro d hd rfl
    rw [hc] at hd
    cases hd
  obtain ⟨hsigma, hdot⟩ := lowerChar_apart.2.2.1
  rw [lowerBetween_of_ne (hne _ hdot) (hne _ hsigma), (isBlank_lowerChar c).2 hc]

theorem mem_lowerBetween {after : List Char} (h : d ∈ lowerBetween before c after) :
    isSmall d ∧ isBlank d = isBlank c := by
  obtain ⟨_, _, ⟨hblank, hblank'⟩, hforms⟩ := lowerChar_apart
  simp only [all_eq_true, Bool.and_eq_true, Bool.not_eq_true'] at hforms
  by_cases hsigma : c = 'Σ'
  · rw [hsigma] at h ⊢
    rw [hblank]
    simp only [lowerBetween, beq_self_eq_true, if_true, mem_singleton] at h
    exact hforms d (by split at h <;> simp [h])
  · by_cases hdot : c = '\u0130'
    · rw [hdot] at h ⊢
      have hd : d = 'i' ∨ d = '\u0307' := by
        simpa [lowerBetween, lowerForm] using h
      rw [hblank']
      exact hforms d (by rcases hd with rfl | rfl <;> simp)
    · rw [lowerBetween_of_ne hdot hsigma, mem_singleton] at h
      rw [h]
      exact ⟨isSmall_lowerChar hdot hsigma, (isBlank_lowerChar c).1⟩

theorem lowerBetween_ne_nil (before : List Char) (c : Char) (after : List Char) :
    lowerBetween before c after ≠ [] := by
  unfold lowerBetween lowerForm
  split
  · exact cons_ne_nil _ _
  · split <;> exact cons_ne_nil _ _

theorem mem_lowerFrom (h : d ∈ lowerFrom before cs) :
    isSmall d ∧ (isBlank d → d ∈ cs) := by
  induction cs generalizing before with
  | nil => cases h
  | cons c cs ih =>
    rcases mem_append.mp h with h | h
    · obtain ⟨hsmall, hblank⟩ := mem_lowerBetween h
      refine ⟨hsmall, fun hd => ?_⟩
      rw [lowerBetween_of_isBlank (hblank ▸ hd)] at h
      rw [mem_singleton.mp h]
      exact mem_cons_self
    · exact ⟨(ih h).1, fun hd => mem_cons_of_mem c ((ih h).2 hd)⟩

theorem lowerFrom_of_small (h : ∀ c ∈ cs, isSmall c) (before : List Char) :
    lowerFrom before cs = cs := by
  induction cs generalizing before with
  | nil => rfl
  | cons c cs ih =>
    obtain ⟨hc, hcs⟩ := forall_mem_cons.mp h
    rw [isSmall, Bool.and_eq_true, beq_iff_eq, bne_iff_ne] at hc
    rw [lowerFrom, lowerBetween, if_neg (by simpa using hc.2), hc.1, ih hcs]
    rfl

theorem lower_lower (s : String) : lower (lower s) = lower s := by
  rw [lower, lower, String.toList_ofList, lowerFrom_of_small fun d hd => (mem_lowerFrom hd).1]

theorem head?_lowerFrom (h : (lowerFrom before cs).head? = some d) :
    ∃ c, cs.head? = some c ∧ isBlank d = isBlank c := by
  cases cs with
  | nil => cases h
  | cons c cs =>
    rw [lowerFrom, head?_append_of_ne_nil _ (lowerBetween_ne_nil before c cs)] at h
    exact ⟨c, rfl, (mem_lowerBetween (mem_of_head? h)).2⟩

theorem lowerFrom_ne_nil (h : cs ≠ []) (before : List Char) : lowerFrom before cs ≠ [] := by
  obtain ⟨c, cs, rfl⟩ := exists_cons_of_ne_nil h
  exact append_ne_nil_of_left_ne_nil (lowerBetween_ne_nil before c cs) _

theorem getLast?_lowerFrom (h : (lowerFrom before cs).getLast? = some d) :
    ∃ c, cs.getLast? = some c ∧ isBlank d = isBlank c := by
  induction cs generalizing before with
  | nil => cases h
  | cons c cs ih =>
    cases cs with
    | nil =>
      rw [lowerFrom, lowerFrom, append_nil] at h
      exact ⟨c, rfl, (mem_lowerBetween (mem_of_getLast? h)).2⟩
    | cons e cs =>
      rw [lowerFrom, getLast?_append_of_ne_nil _
        (lowerFrom_ne_nil (cons_ne_nil e cs) _)] at h
      rw [getLast?_cons_cons]
      exact ih h

/-! ### Words -/

theorem endsWord_append_space (before u v : List Char) :
    endsWord before (u ++ ' ' :: v) = endsWord before u := by
  have hspace : (' ' :: v).dropWhile isCaseIgnorable = ' ' :: v := rfl
  rw [endsWord, endsWord, dropWhile_append, hspace]
  cases u.dropWhile isCaseIgnorable <;> rfl

theorem endsWord_space_append (u v after : List Char) :
    endsWord (u ++ ' ' :: v) after = endsWord u after := by
  have hspace : (' ' :: v).dropWhile isCaseIgnorable = ' ' :: v := rfl
  rw [endsWord, endsWord, dropWhile_append, hspace]
  cases u.dropWhile isCaseIgnorable <;> rfl

theorem lowerFrom_space_append (u v cs : List Char) :
    lowerFrom (u ++ ' ' :: v) cs = lowerFrom u cs := by
  induction cs generalizing u with
  | nil => rfl
  | cons c cs ih =>
    rw [lowerFrom, lowerFrom, lowerBetween, lowerBetween, endsWord_space_append, ← cons_append, ih]

theorem lowerFrom_append_space (before u v : List Char) :
    lowerFrom before (u ++ ' ' :: v) = lowerFrom before u ++ ' ' :: lowerFrom [] v := by
  induction u generalizing before with
  | nil =>
    change lowerBetween before ' ' v ++ lowerFrom ([] ++ ' ' :: before) v = _
    rw [lowerBetween_of_isBlank (by decide), lowerFrom_space_append]
    rfl
  | cons c u ih =>
    rw [cons_append, lowerFrom, lowerFrom, ih, lowerBetween, lowerBetween,
      endsWord_append_space, append_assoc]

theorem isLetterLike_of_lowerBetween {after : List Char}
    (h : ∀ d ∈ lowerBetween before c after, d.isAlpha) : isLetterLike c := by
  by_cases hsigma : c = 'Σ'
  · rw [hsigma] at h
    simp only [lowerBetween, beq_self_eq_true, if_true, mem_singleton, forall_eq] at h
    split at h <;> exact absurd h (by decide)
  by_cases hdot : c = '\u0130'
  · rw [hdot]
    decide
  rw [lowerBetween_of_ne hdot hsigma, forall_mem_singleton] at h
  by_cases hascii : c.toNat < 128
  · obtain ⟨_, _, _, _, halpha⟩ := lowerChar_ascii hascii
    simp only [isLetterLike, halpha h, Bool.true_or]
  · have hlow : (lowerChar c).toNat < 128 := by
      change (decide ((lowerChar c).val ≥ 65 ∧ (lowerChar c).val ≤ 90) ||
        (decide ((lowerChar c).val ≥ 97) && decide ((lowerChar c).val ≤ 122))) = true at h
      simp only [Bool.or_eq_true, Bool.and_eq_true, decide_eq_true_eq, UInt32.le_iff_toNat_le,
        ge_iff_le] at h
      change (lowerChar c).val.toNat < 128
      rcases h with h | h
      · exact Nat.lt_of_le_of_lt h.2 (by decide)
      · exact Nat.lt_of_le_of_lt h.2 (by decide)
    by_cases hsame : lowerChar c = c
    · rw [hsame] at hlow
      omega
    · obtain ⟨r, hr, hholds, hcode⟩ := exists_lowerChar (by omega) hsame
      simp only [holds, Bool.and_eq_true, decide_eq_true_eq] at hholds
      rcases lowerRuns_ascii r hr with himage | hkelvin
      · omega
      · obtain rfl : c = '\u212A' := Char.toNat_inj.mp (show c.toNat = 0x212A by omega)
        decide

theorem isLetterLike_of_lowerFrom (h : ∀ d ∈ lowerFrom before cs, d.isAlpha) :
    ∀ c ∈ cs, isLetterLike c := by
  induction cs generalizing before with
  | nil => exact forall_mem_nil _
  | cons c cs ih =>
    rw [lowerFrom, forall_mem_append] at h
    exact forall_mem_cons.mpr ⟨isLetterLike_of_lowerBetween h.1, ih h.2⟩

end Loom.Text
