import Loom.Outline.Token
import Loom.Proofs.Spacing
import Mathlib.Data.List.Basic
import Mathlib.Data.List.Forall2

/-!
# Tagged Lines

A line of a flow is read from its text, without the blanks around it, and from its
nesting. If the text begins with a tag and a point, the tokens are those of what
follows, nested by the indentation; if not, they are those of the whole text, at
the margin. So two lines with the same text and the same nesting have the same
tokens, whatever blanks stand before and after.

What follows a tag often begins with a verb. A verb may be written in any case of
letters, and between it and the rest there may be any run of spaces and tabs: the
tokens are the same.
-/

namespace Loom.Outline

open Loom.Text Loom.Text.Pattern List Bool
open String (ofList toList_ofList)

variable {c : Char} {tag cs rest indent more : List Char} {line s w : String} {here next : Place}
  {gs gs' : Groups} {gap : List Char}

/-! ### Characters -/

theorem of_ascii {p : Char → Prop} (h : ∀ n : Fin 128, p (Char.ofNat n)) (hc : c.toNat < 128) :
    p c := by
  have hp := h ⟨c.toNat, hc⟩
  rwa [Char.ofNat_toNat] at hp

theorem lt_of_isAlphanum (h : c.isAlphanum) : c.toNat < 128 := by
  change ((decide (c.val ≥ 65 ∧ c.val ≤ 90) || (decide (c.val ≥ 97) && decide (c.val ≤ 122))) ||
    (decide (c.val ≥ 48) && decide (c.val ≤ 57))) = true at h
  simp only [or_eq_true, and_eq_true, decide_eq_true_eq] at h
  rcases h with (h | h) | h <;> exact Nat.lt_of_le_of_lt h.2 (by decide)

theorem of_isAlphanum (h : c.isAlphanum) :
    isBlank c = false ∧ isWord c ∧ (isAsciiLetter c → isDigit c = false) :=
  @of_ascii c (fun c => c.isAlphanum → isBlank c = false ∧ isWord c ∧
    (isAsciiLetter c → isDigit c = false)) (by decide +kernel) (lt_of_isAlphanum h) h

theorem isAlphanum_of_isAsciiLetter (h : isAsciiLetter c) : c.isAlphanum :=
  or_eq_true_iff.mpr (.inl h)

theorem isDigit_of_isAsciiLetter (h : isAsciiLetter c) : isDigit c = false :=
  (of_isAlphanum (isAlphanum_of_isAsciiLetter h)).2.2 h

theorem isBlank_of_isAsciiLetter (h : isAsciiLetter c) : isBlank c = false :=
  (of_isAlphanum (isAlphanum_of_isAsciiLetter h)).1

theorem isWord_of_isAsciiLetter (h : isAsciiLetter c) : isWord c :=
  (of_isAlphanum (isAlphanum_of_isAsciiLetter h)).2.1

theorem of_isLetterLike (h : isLetterLike c) : isBlank c = false ∧ isWord c ∧ isDigit c = false := by
  simp only [isLetterLike, or_eq_true, beq_iff_eq] at h
  rcases h with (((h | rfl) | rfl) | rfl) | rfl
  · exact ⟨isBlank_of_isAsciiLetter h, isWord_of_isAsciiLetter h, isDigit_of_isAsciiLetter h⟩
  all_goals decide +kernel

theorem isLetterLike_of_sameLetter {letter : Char} (hletter : isAsciiLetter letter)
    (h : sameLetter letter c) : isLetterLike c := by
  simp only [sameLetter, Bool.or_eq_true, Bool.and_eq_true, beq_iff_eq] at h
  rcases h with ((h | ⟨_, rfl⟩) | ⟨_, rfl⟩) | ⟨_, rfl | rfl⟩
  · have halpha : c.isAlpha := by
      by_cases hupper : c.val ≥ 65 ∧ c.val ≤ 90
      · exact Bool.or_eq_true_iff.mpr (.inl (decide_eq_true hupper))
      · obtain rfl : c = letter := (dif_neg hupper).symm.trans h
        exact hletter
    simp only [isLetterLike, halpha, Bool.true_or]
  all_goals decide

theorem isBlank_of_toNat (h : 48 ≤ c.toNat ∧ c.toNat ≤ 57) : isBlank c = false := by
  rw [isBlank, if_pos (by omega)]
  simp
  omega

theorem isBlank_of_isDigit (h : isDigit c) : isBlank c = false := by
  rw [isDigit, digitValue?] at h
  split at h
  · split at h
    · rename_i hdigit
      simp only [and_eq_true, decide_eq_true_eq, Char.le_def, UInt32.le_iff_toNat_le] at hdigit
      exact isBlank_of_toNat hdigit
    · cases h
  · rename_i hascii
    rw [isBlank, if_neg hascii]
    -- no row of ten digits meets a range of blanks
    have hapart : ∀ z ∈ zeros, ∀ r ∈ blankRanges, r.2 < z ∨ z + 9 < r.1 := by decide +kernel
    rw [Option.isSome_map, find?_isSome] at h
    obtain ⟨z, hz, hin⟩ := h
    rw [Ranges.holds, any_eq_false]
    intro r hr
    have := hapart z hz r hr
    simp at hin ⊢
    omega

theorem isAsciiLetter_of_isRoman (h : isRoman c) : isAsciiLetter c := by
  have hall : "ivxlcdmIVXLCDM".toList.all isAsciiLetter := by decide +kernel
  exact all_eq_true.mp hall c (contains_iff_mem.mp h)

theorem isBlank_of_finish (h : rest = [] ∨ rest = ['\n']) : ∀ c ∈ rest, isBlank c := by
  rcases h with rfl | rfl
  · exact forall_mem_nil _
  · exact all_eq_true.mp (by decide)

/-! ### Tags -/

/-- A number, a letter or a roman numeral. -/
def isTag (tag : List Char) : Bool :=
  !tag.isEmpty && (tag.all isDigit || (tag.length == 1 && tag.all isAsciiLetter) || tag.all isRoman)

theorem reads_numeral {accepts : Char → Bool} (hpoint : accepts '.' = false) (hne : tag ≠ [])
    (hall : tag.all accepts) (before : Option Char) (cs : List Char) (gs : Groups) :
    (many1 accepts ++ chr '.').Reads ⟨before, tag ++ '.' :: cs⟩ gs ⟨some '.', cs⟩ gs := by
  obtain ⟨c, w, rfl⟩ := exists_cons_of_ne_nil hne
  have hmem := all_eq_true.mp hall
  have hmany : (many1 accepts).Reads ⟨before, c :: w ++ '.' :: cs⟩ gs
      ⟨lastOf before (c :: w), '.' :: cs⟩ gs := by
    refine reads_many1 (hmem c mem_cons_self)
      (fun d hd => hmem d (mem_cons_of_mem c hd)) (fun d hd => ?_) before gs
    rw [← Option.some_inj.mp hd]
    exact hpoint
  exact hmany.seq (reads_one rfl _ cs gs)

theorem reads_tag (h : isTag tag) (before : Option Char) (cs : List Char) (gs : Groups) :
    (oneOf [many1 isDigit, one isAsciiLetter, many1 isRoman] ++ chr '.').Reads
      ⟨before, tag ++ '.' :: cs⟩ gs ⟨some '.', cs⟩ gs := by
  rw [isTag, and_eq_true, or_eq_true, or_eq_true, and_eq_true] at h
  obtain ⟨hempty, hform⟩ := h
  have hne : tag ≠ [] := by simpa using hempty
  refine reads_alt_seq.mpr ?_
  by_cases hdigits : tag.all isDigit = true
  · exact reads_alt_left (reads_numeral (by decide +kernel) hne hdigits before cs gs)
  obtain ⟨c, w, rfl⟩ := exists_cons_of_ne_nil hne
  have hletters : ∀ d ∈ c :: w, isAsciiLetter d := by
    rcases hform with (h | ⟨_, h⟩) | h
    · exact absurd h hdigits
    · exact all_eq_true.mp h
    · exact fun d hd => isAsciiLetter_of_isRoman (all_eq_true.mp h d hd)
  have hc := hletters c mem_cons_self
  -- a letter is no digit, so the first form does not fit
  refine reads_alt_right ?_ (reads_alt_seq.mpr ?_)
  · rintro place groups ⟨_, _, ⟨_, _, ⟨d, hd, hrest, _⟩, _⟩, _⟩
    rw [← (cons.inj hrest).1, isDigit_of_isAsciiLetter hc] at hd
    cases hd
  · cases w with
    | nil => exact reads_alt_left ((reads_one hc before _ gs).seq (reads_one rfl _ cs gs))
    | cons d w =>
      -- a letter after the first is no point, so neither does the second
      have hd := hletters d (mem_cons_of_mem c mem_cons_self)
      have hroman : (c :: d :: w).all isRoman := by
        rcases hform with (h | ⟨h, _⟩) | h
        · exact absurd h hdigits
        · exact absurd h (by simp)
        · exact h
      refine reads_alt_right ?_ (reads_numeral (by decide +kernel) hne hroman before cs gs)
      rintro place groups ⟨mid, _, ⟨_, _, hrest, _⟩, ⟨e, he, hrest', _⟩⟩
      rw [← (cons.inj hrest).2] at hrest'
      rw [← (cons.inj hrest').1] at he
      rw [eq_of_beq he] at hd
      exact absurd hd (by decide)

theorem isBlank_of_mem_tag (h : isTag tag) : ∀ c ∈ tag, isBlank c = false := by
  rw [isTag, and_eq_true, or_eq_true, or_eq_true, and_eq_true] at h
  intro c hc
  rcases h.2 with (h | ⟨_, h⟩) | h
  · exact isBlank_of_isDigit (all_eq_true.mp h c hc)
  · exact isBlank_of_isAsciiLetter (all_eq_true.mp h c hc)
  · exact isBlank_of_isAsciiLetter (isAsciiLetter_of_isRoman (all_eq_true.mp h c hc))

theorem point_not_mem_tag (h : isTag tag) : '.' ∉ tag := by
  rw [isTag, and_eq_true, or_eq_true, or_eq_true, and_eq_true] at h
  intro hc
  rcases h.2 with (h | ⟨_, h⟩) | h
  · exact absurd (all_eq_true.mp h '.' hc) (by decide +kernel)
  · exact absurd (all_eq_true.mp h '.' hc) (by decide +kernel)
  · exact absurd (all_eq_true.mp h '.' hc) (by decide +kernel)

theorem append_cons_inj {α : Type} {d : α} {x y u v : List α} (hx : d ∉ x) (hu : d ∉ u)
    (h : x ++ d :: y = u ++ d :: v) : x = u ∧ y = v := by
  induction x generalizing u with
  | nil =>
    cases u with
    | nil => exact ⟨rfl, (cons.inj h).2⟩
    | cons c u => exact absurd ((cons.inj h).1 ▸ mem_cons_self) hu
  | cons c x ih =>
    cases u with
    | nil => exact absurd ((cons.inj h).1 ▸ mem_cons_self) hx
    | cons e u =>
      obtain ⟨rfl, hrest⟩ := cons.inj h
      obtain ⟨rfl, hy⟩ := ih (fun hm => hx (mem_cons_of_mem c hm))
        (fun hm => hu (mem_cons_of_mem c hm)) hrest
      exact ⟨rfl, hy⟩

def cutTag (cs : List Char) : Option (List Char × List Char) := match cs.dropWhile (· != '.') with
  | [] => none
  | _ :: rest =>
    if isTag (cs.takeWhile (· != '.')) then some (cs.takeWhile (· != '.'), rest) else none

theorem cutTag_append (h : isTag tag) (rest : List Char) :
    cutTag (tag ++ '.' :: rest) = some (tag, rest) := by
  have hplain : ∀ c ∈ tag, (c != '.') := by
    intro c hc
    rw [bne_iff_ne]
    rintro rfl
    exact point_not_mem_tag h hc
  rw [cutTag, dropWhile_append_of_pos hplain, takeWhile_append_of_pos hplain,
    dropWhile_cons_of_neg (by decide), takeWhile_cons_of_neg (by decide),
    append_nil]
  exact if_pos h

theorem of_cutTag (h : cutTag cs = some (tag, rest)) :
    cs = tag ++ '.' :: rest ∧ isTag tag := by
  rw [cutTag] at h
  split at h
  · cases h
  · rename_i c more hdrop
    split at h
    · rename_i htag
      obtain ⟨rfl, rfl⟩ := Prod.mk.inj (Option.some_inj.mp h)
      have hpoint := head?_dropWhile_not (· != '.') cs
      rw [hdrop] at hpoint
      have hc : c = '.' := by simpa using hpoint
      refine ⟨?_, htag⟩
      rw [hc] at hdrop
      rw [← hdrop, takeWhile_append_dropWhile]
    · cases h

def textTokens (s : String) (nesting : Nat) : List Token := match cutTag s.toList with
  | some (_, rest) => flowTokens (strip (ofList rest)) nesting
  | none => if s.isEmpty then [] else flowTokens s 0

/-- The nesting of a line, which counts if it has a tag. -/
def lineNesting (line : String) : Nat := match cutTag (strip line).toList with
  | some _ => nestingOf (line.toList.takeWhile isBlank)
  | none => 0

/-! ### The pattern of bullets -/

theorem exists_eq_strip (s : String) : ∃ after : List Char, (∀ c ∈ after, isBlank c) ∧
    s.toList = s.toList.takeWhile isBlank ++ ((strip s).toList ++ after) := by
  refine ⟨((s.toList.dropWhile isBlank).reverse.takeWhile isBlank).reverse, fun c hc => ?_, ?_⟩
  · exact mem_takeWhile_imp (mem_reverse.mp hc)
  · rw [strip, stripWhere, toList_ofList, stripChars, dropEndWhile_append,
      takeWhile_append_dropWhile]

theorem head_tag (h : isTag tag) (cs : List Char) :
    ∀ c, (tag ++ '.' :: cs).head? = some c → isBlank c = false := by
  intro c hc
  rw [head?_append] at hc
  cases htag : tag.head? with
  | none => rw [htag] at hc; rw [← Option.some_inj.mp hc]; decide
  | some d =>
    rw [htag] at hc
    rw [← Option.some_inj.mp hc]
    exact isBlank_of_mem_tag h d (mem_of_mem_head? htag)

theorem match?_tagged (hline : line.toList = indent ++ (tag ++ '.' :: (gap ++ rest)))
    (hindent : ∀ c ∈ indent, isBlank c) (htag : isTag tag)
    (hgap : ∀ c ∈ gap, isBlank c) (hfirst : ∀ c, rest.head? = some c → isBlank c = false)
    (hrest : ∀ c ∈ rest, onLine c) :
    bullet.match? line = some ⟨line.toList, [], [("rest", rest), ("indent", indent)]⟩ := by
  have hstart := reads_named_many hindent (head_tag htag (gap ++ rest)) none [] "indent"
  have htagged := reads_assoc.mpr (((reads_start _ []).seq hstart).seq
    (reads_tag htag _ (gap ++ rest) _))
  have hpassed := htagged.seq (reads_many hgap hfirst _ _)
  have hall := hpassed.seq (reads_named (reads_many_end hrest _ _) (append_nil _).symm "rest")
  rw [← hline] at hall
  exact match?_of_reads (hall.seq (reads_finish _ _))

theorem exists_tag_of_match? {m : Match} (h : bullet.match? line = some m) :
    ∃ indent tag rest, line.toList = indent ++ (tag ++ '.' :: rest) ∧
      (∀ c ∈ indent, isBlank c) ∧ isTag tag := by
  obtain ⟨_, _, _, ⟨_, _, ⟨_, _, ⟨_, _, ⟨mid, _, ⟨_, _, ⟨_, rfl, rfl⟩,
    ⟨_, ⟨indent, hindent, hline, _⟩, _⟩⟩,
    htag⟩, ⟨p, hp, hpoint, _⟩⟩, _⟩, _⟩, _⟩ := fits_of_match? h
  change line.toList = indent ++ mid.rest at hline
  rw [eq_of_beq hp] at hpoint
  rcases htag with ⟨_, _, ⟨d, hd, hrest, _⟩, ⟨w, hw, hrest', _⟩⟩ | ⟨d, hd, hrest, _⟩ |
    ⟨_, _, ⟨d, hd, hrest, _⟩, ⟨w, hw, hrest', _⟩⟩
  · refine ⟨indent, d :: w, _, by rw [hline, hrest, hrest', hpoint]; rfl, hindent, ?_⟩
    have hall : (d :: w).all isDigit := all_eq_true.mpr (forall_mem_cons.mpr ⟨hd, hw⟩)
    rw [isTag, hall]
    rfl
  · refine ⟨indent, [d], _, by rw [hline, hrest, hpoint]; rfl, hindent, ?_⟩
    have hall : [d].all isAsciiLetter := all_eq_true.mpr (forall_mem_singleton.mpr hd)
    have hlength : ([d].length == 1) := rfl
    rw [isTag, hall, hlength, Bool.and_true, Bool.or_true, Bool.true_or]
    rfl
  · refine ⟨indent, d :: w, _, by rw [hline, hrest, hrest', hpoint]; rfl, hindent, ?_⟩
    have hall : (d :: w).all isRoman := all_eq_true.mpr (forall_mem_cons.mpr ⟨hd, hw⟩)
    rw [isTag, hall, Bool.or_true]
    rfl

/-! ### The tokens of a line -/

theorem stripChars_append_of_blank (u : List Char) {after : List Char}
    (h : ∀ c ∈ after, isBlank c) :
    stripChars isBlank (u ++ after) = stripChars isBlank u := by
  have hend : ∀ v : List Char, dropEndWhile isBlank (v ++ after) = dropEndWhile isBlank v := by
    intro v
    rw [dropEndWhile, dropEndWhile, reverse_append, dropWhile_append_of_pos]
    exact fun c hc => h c (mem_reverse.mp hc)
  rw [stripChars, stripChars, dropWhile_append]
  split
  · rename_i hempty
    have hafter : after.dropWhile isBlank = [] := by
      rw [← append_nil after, dropWhile_append_of_pos h]
      rfl
    rw [hafter, isEmpty_iff.mp hempty]
  · exact hend _

theorem strip_of_blanks {before u after : List Char} (hs : s.toList = before ++ (u ++ after))
    (hbefore : ∀ c ∈ before, isBlank c) (hafter : ∀ c ∈ after, isBlank c) :
    strip s = strip (ofList u) := by
  rw [strip, strip, stripWhere, stripWhere, toList_ofList, hs,
    ← stripChars_append_of_blank u hafter, stripChars, dropWhile_append_of_pos hbefore]
  rfl

theorem exists_strip_tagged (hline : line.toList = indent ++ (tag ++ '.' :: rest))
    (hindent : ∀ c ∈ indent, isBlank c) (htag : isTag tag) :
    (strip line).toList = tag ++ '.' :: dropEndWhile isBlank rest := by
  have hpoint : ∀ c, (tag ++ ['.']).getLast? = some c → isBlank c = false := by
    intro c hc
    rw [getLast?_concat] at hc
    rw [← Option.some_inj.mp hc]
    decide
  have hend := dropEndWhile_append_of_last hpoint rest
  rw [append_assoc, append_assoc] at hend
  rw [strip, stripWhere, toList_ofList, stripChars, hline,
    dropWhile_append_of_pos hindent, dropWhile_of_head (head_tag htag rest)]
  exact hend

theorem lineTokens_tagged (hline : line.toList = indent ++ (tag ++ '.' :: (gap ++ rest)))
    (hindent : ∀ c ∈ indent, isBlank c) (htag : isTag tag)
    (hgap : ∀ c ∈ gap, isBlank c) (hfirst : ∀ c, rest.head? = some c → isBlank c = false)
    (hrest : ∀ c ∈ rest, onLine c) (h : sectionOf? line = none) :
    lineTokens (some .flow) line
      = (some .flow, flowTokens (strip (ofList rest)) (nestingOf indent)) := by
  have hgroup :
      (Match.group ⟨line.toList, [], [("rest", rest), ("indent", indent)]⟩ "indent").toList
        = indent := toList_ofList
  rw [lineTokens, h, match?_tagged hline hindent htag hgap hfirst hrest]
  dsimp only
  rw [hgroup]
  rfl

theorem lineTokens_eq (hline : ∀ c ∈ line.toList, onLine c) (h : sectionOf? line = none) :
    lineTokens (some .flow) line = (some .flow, textTokens (strip line) (lineNesting line)) := by
  rw [textTokens, lineNesting]
  cases hcut : cutTag (strip line).toList with
  | none =>
    have hbullet : bullet.match? line = none := by
      cases hm : bullet.match? line with
      | none => rfl
      | some m =>
        obtain ⟨indent, tag, rest, hline, hindent, htag⟩ := exists_tag_of_match? hm
        rw [exists_strip_tagged hline hindent htag, cutTag_append htag] at hcut
        cases hcut
    rw [lineTokens, h, hbullet]
    rfl
  | some cut =>
    obtain ⟨tag, rest⟩ := cut
    obtain ⟨hstrip, htag⟩ := of_cutTag hcut
    obtain ⟨after, hafter, heq⟩ := exists_eq_strip line
    -- The blanks after the tag may go on into those at the end of the line.
    obtain ⟨gap, text, hsplit, hgap, hfirst⟩ : ∃ gap text, rest ++ after = gap ++ text ∧
        (∀ c ∈ gap, isBlank c = true) ∧ ∀ c, text.head? = some c → isBlank c = false :=
      ⟨_, _, takeWhile_append_dropWhile.symm, fun c hc => mem_takeWhile_imp hc,
        head_dropWhile isBlank _⟩
    have hwritten :
        line.toList = line.toList.takeWhile isBlank ++ (tag ++ '.' :: (gap ++ text)) := by
      rw [hstrip, append_assoc, cons_append, hsplit] at heq
      exact heq
    have hsame : strip (ofList text) = strip (ofList rest) := by
      have hwhole : (ofList (rest ++ after)).toList = gap ++ (text ++ []) := by
        rw [toList_ofList, hsplit, append_nil]
      exact (strip_of_blanks hwhole hgap (forall_mem_nil _)).symm.trans
        (@strip_of_blanks _ [] _ _ toList_ofList (forall_mem_nil _) hafter)
    rw [lineTokens_tagged hwritten (fun c hc => mem_takeWhile_imp hc) htag hgap hfirst
      (fun c hc => hline c (by rw [hwritten]; simp [hc])) h, hsame]

/-! ### Verbs in any case -/

theorem replaceFrom_after {p : Pattern} (hp : ∀ c cs, p.matchAt ⟨some c, cs⟩ = none)
    (f : Match → List Char) (c : Char) (cs : List Char) : replaceFrom p f (some c) 0 cs = cs := by
  induction cs generalizing c with
  | nil => rfl
  | cons d cs ih =>
    rw [replaceFrom, hp]
    exact congrArg (d :: ·) (ih d)

theorem replaceFrom_of_none {p : Pattern} (hp : ∀ c cs, p.matchAt ⟨some c, cs⟩ = none)
    (f : Match → List Char) {cs : List Char} (hstart : p.matchAt ⟨none, cs⟩ = none) :
    replaceFrom p f none 0 cs = cs := by
  cases cs with
  | nil => rfl
  | cons c cs =>
    rw [replaceFrom, hstart]
    exact congrArg (c :: ·) (replaceFrom_after hp f c cs)

theorem exists_of_fits_word (h : (word w).Fits here gs next gs') : ∃ u, here.rest = u ++ next.rest ∧
      List.Forall₂ (fun letter c => sameLetter letter c = true) w.toList u := by
  rw [word] at h
  generalize w.toList = letters at h ⊢
  induction letters generalizing here gs with
  | nil => exact ⟨[], by rw [h.1]; rfl, .nil⟩
  | cons letter letters ih =>
    obtain ⟨mid, gm, ⟨c, hc, hrest, _⟩, hmore⟩ := h
    obtain ⟨u, hu, hsame⟩ := ih hmore
    exact ⟨c :: u, by rw [hrest, hu]; rfl, .cons hc hsame⟩

theorem lowerFrom_of_ascii (h : ∀ c ∈ cs, c.toNat < 128) (before : List Char) :
    lowerFrom before cs = cs.map Char.toLower := by
  induction cs generalizing before with
  | nil => rfl
  | cons c cs ih =>
    obtain ⟨hc, hcs⟩ := forall_mem_cons.mp h
    have hother : ∀ d : Char, 128 ≤ d.toNat → (c == d) = false := by
      intro d hd
      rw [beq_eq_false_iff_ne]
      rintro rfl
      omega
    rw [lowerFrom, ih hcs, lowerBetween, hother _ (by decide), if_neg Bool.false_ne_true,
      lowerForm, hother _ (by decide), if_neg Bool.false_ne_true, lowerChar, if_pos hc]
    rfl

theorem lt_of_isAsciiLetter {c : Char} (h : isAsciiLetter c) : c.toNat < 128 :=
  lt_of_isAlphanum (isAlphanum_of_isAsciiLetter h)

theorem toLower_of_sameLetter {letter c : Char} (h : sameLetter letter c)
    (hc : c.toNat < 128) : c.toLower = letter := by
  have hother : ∀ d : Char, 128 ≤ d.toNat → (c == d) = false := by
    intro d hd
    rw [beq_eq_false_iff_ne]
    rintro rfl
    omega
  rw [sameLetter, hother '\u017F' (by decide), hother '\u212A' (by decide),
    hother '\u0131' (by decide),
    hother '\u0130' (by decide)] at h
  simpa using h

/-- A verb that is known, in any case of letters. -/
structure IsVerb (verb : List Char) : Prop where
  letters : ∀ c ∈ verb, isAsciiLetter c
  known : knownVerbs.contains (lower (ofList verb))

namespace IsVerb

variable {verb : List Char}

theorem toList_lower (h : IsVerb verb) :
    (lower (ofList verb)).toList = verb.map Char.toLower := by
  rw [lower, toList_ofList, toList_ofList,
    lowerFrom_of_ascii fun c hc => lt_of_isAsciiLetter (h.letters c hc)]

theorem differs (h : IsVerb verb) : 3 ≤ verb.length ∧
    (verb.map Char.toLower).take 2 ∉ [['p', 'l'], ['k', 'i'], ['g', 'o']] ∧
    verb.map Char.toLower ≠ ['f', 'o', 'r'] := by
  have hall : ∀ v ∈ knownVerbs, 3 ≤ v.toList.length ∧
      v.toList.take 2 ∉ [['p', 'l'], ['k', 'i'], ['g', 'o']] ∧ v.toList ≠ ['f', 'o', 'r'] := by
    decide +kernel
  have hv := hall _ (contains_iff_mem.mp h.known)
  rwa [h.toList_lower, length_map] at hv

theorem map_toLower_of_same {letters : List Char}
    (hsame : List.Forall₂ (fun letter c => sameLetter letter c = true) letters cs)
    (hcs : ∀ c ∈ cs, c.toNat < 128) : cs.map Char.toLower = letters := by
  induction hsame with
  | nil => rfl
  | cons hc _ ih =>
    obtain ⟨hletter, hcs⟩ := forall_mem_cons.mp hcs
    rw [map_cons, toLower_of_sameLetter hc hletter, ih hcs]

theorem take_of_fits_word (h : IsVerb verb) (hhere : here.rest = verb ++ more)
    (hword : (word w).Fits here gs next gs') {n : Nat} (hw : n ≤ w.toList.length)
    (hn : n ≤ verb.length) : (verb.map Char.toLower).take n = w.toList.take n := by
  obtain ⟨u, hu, hsame⟩ := exists_of_fits_word hword
  have htake : u.take n = verb.take n := by
    have heq := congrArg (take n) (hu.symm.trans hhere)
    rwa [take_append_of_le_length (by rw [← hsame.length_eq]; exact hw),
      take_append_of_le_length hn] at heq
  have hletters : ∀ c ∈ u.take n, c.toNat < 128 := by
    rw [htake]
    exact fun c hc => lt_of_isAsciiLetter (h.letters c (mem_of_mem_take hc))
  rw [← map_take, ← htake]
  exact map_toLower_of_same (forall₂_take n hsame) hletters

theorem not_fits_courtesy (h : IsVerb verb) (htwo : 2 ≤ w.toList.length)
    (hw : w.toList.take 2 ∈ [['p', 'l'], ['k', 'i'], ['g', 'o']])
    (hhere : here.rest = verb ++ more) : ¬(word w).Fits here gs next gs' := by
  intro hword
  obtain ⟨hlength, hother, _⟩ := h.differs
  rw [h.take_of_fits_word hhere hword htwo (by omega)] at hother
  exact hother hw

theorem exists_cons (h : IsVerb verb) : ∃ c cs, verb = c :: cs ∧ isAsciiLetter c := by
  obtain ⟨hlength, _⟩ := h.differs
  obtain ⟨c, cs, rfl⟩ := exists_cons_of_length_pos (by omega : 0 < verb.length)
  exact ⟨c, cs, rfl, h.letters c mem_cons_self⟩

theorem head_append (h : IsVerb verb) (more : List Char) :
    ∀ c, (verb ++ more).head? = some c → isBlank c = false := by
  obtain ⟨d, cs, rfl, hd⟩ := h.exists_cons
  intro c hc
  rw [← Option.some_inj.mp hc]
  exact isBlank_of_isAsciiLetter hd

theorem courtesy_matchAt (h : IsVerb verb) (more : List Char) :
    courtesy.matchAt ⟨none, verb ++ more⟩ = none := by
  refine run_eq_none ?_ _
  rintro next groups ⟨_, _, ⟨_, _, ⟨_, rfl, rfl⟩, ⟨_, _, ⟨mid, _, ⟨w, hw, hrest, _⟩, hword⟩, _⟩⟩, _⟩
  have hmid : mid.rest = verb ++ more := by
    cases w with
    | nil => exact hrest.symm
    | cons c w =>
      have hfirst := h.head_append more c (by rw [show verb ++ more = _ from hrest]; rfl)
      rw [hw c mem_cons_self] at hfirst
      exact absurd hfirst.symm false_ne_true
  rcases hword with hword | hword | hword
  · exact h.not_fits_courtesy (by decide) (by decide) hmid hword
  · exact h.not_fits_courtesy (by decide) (by decide) hmid hword
  · exact h.not_fits_courtesy (by decide) (by decide) hmid hword

theorem forEach_match? (h : IsVerb verb) (hs : s.toList = verb ++ more) :
    forEach.match? s = none := by
  refine run_eq_none ?_ _
  rintro next groups ⟨_, _, ⟨_, _, ⟨_, _, ⟨_, _, ⟨mid, _, ⟨after, _, ⟨_, rfl, rfl⟩, hword⟩,
    ⟨_, _, ⟨b, hb, hblank, _⟩, _⟩⟩, _⟩, _⟩, _⟩, _⟩
  obtain ⟨hlength, _, hfor⟩ := h.differs
  have hthree := h.take_of_fits_word (n := 3) hs hword (by decide) hlength
  obtain ⟨u, hu, hsame⟩ := exists_of_fits_word hword
  have hthree' : u.length = 3 := hsame.length_eq.symm
  have hlonger : verb.length ≠ 3 := by
    intro hlength
    rw [take_of_length_le (by rw [length_map]; omega)] at hthree
    exact hfor hthree
  -- A verb that begins so has another letter where a blank has to be.
  rw [hs, hblank] at hu
  rcases append_eq_append_iff.mp hu with ⟨a, ha, _⟩ | ⟨a, ha, htail⟩
  · have := congrArg length ha
    rw [length_append] at this
    omega
  · cases a with
    | nil =>
      rw [append_nil] at ha
      exact hlonger (by rw [ha, hthree'])
    | cons c a =>
      have hletter := h.letters c (by rw [ha]; simp)
      rw [(cons.inj htail).1, isBlank_of_isAsciiLetter hletter] at hb
      cases hb

theorem headWord_match? (h : IsVerb verb) (hs : s.toList = verb ++ more)
    (hmore : ∀ c, more.head? = some c → isSpacing c) (hline : ∀ c ∈ more, onLine c) :
    headWord.match? s = some ⟨s.toList, [], [("rest", more), ("head", verb)]⟩ := by
  have hend : ∀ c, more.head? = some c → isAsciiLetter c = false ∧ isWord c = false := by
    intro c hc
    have hspacing := hmore c hc
    rw [isSpacing, or_eq_true, beq_iff_eq, beq_iff_eq] at hspacing
    rcases hspacing with rfl | rfl
    · decide
    · decide
  obtain ⟨d, cs, hverb, hd⟩ := h.exists_cons
  have hword := reads_many1 hd
    (fun c hc => h.letters c (by rw [hverb]; exact mem_cons_of_mem d hc))
    (fun c hc => (hend c hc).1) none []
  rw [← hverb] at hword
  have hedge : Place.atEdge ⟨lastOf none verb, more⟩ := by
    have hafter : more.head?.any isWord = false := by
      cases hhead : more.head? with
      | none => rfl
      | some c => exact (hend c hhead).2
    cases hlast : verb.getLast? with
    | none => rw [hverb] at hlast; exact absurd (getLast?_eq_none_iff.mp hlast) (by simp)
    | some c =>
      have hc : isWord c := isWord_of_isAsciiLetter (h.letters c (mem_of_getLast? hlast))
      simp [Place.atEdge, lastOf, hlast, hc, hafter]
  have hall := ((((reads_start _ []).seq (reads_named hword rfl "head")).seq
    (reads_edge hedge _)).seq (reads_named (reads_many_end hline _ _) (append_nil _).symm
    "rest")).seq (reads_finish _ _)
  exact match?_of_reads (by rw [hs]; exact hall)

end IsVerb

theorem trimmed_verb {verb pause text : List Char} (hverb : IsVerb verb)
    (hempty : pause = [] ↔ text = []) (htext : Trimmed isBlank text) :
    Trimmed isBlank (verb ++ (pause ++ text)) := by
  refine ⟨hverb.head_append _, fun c hc => ?_⟩
  by_cases h : text = []
  · rw [hempty.mpr h, h, append_nil, append_nil] at hc
    exact isBlank_of_isAsciiLetter (hverb.letters c (mem_of_getLast? hc))
  · rw [← append_assoc, getLast?_append_of_ne_nil _ h] at hc
    exact htext.last c hc

theorem flowVerb?_known {verb pause text : List Char} (hverb : IsVerb verb)
    (hpause : ∀ c ∈ pause, isSpacing c) (hempty : pause = [] ↔ text = [])
    (htext : Trimmed isBlank text) (hline : ∀ c ∈ text, onLine c) :
    flowVerb? (ofList (verb ++ (pause ++ text)))
      = some (lower (ofList verb), ofList text) := by
  have hs : (ofList (verb ++ (pause ++ text))).toList = verb ++ (pause ++ text) :=
    toList_ofList
  generalize ofList (verb ++ (pause ++ text)) = s at hs ⊢
  have hmore : ∀ c, (pause ++ text).head? = some c → isSpacing c := by
    intro c hc
    cases pause with
    | nil => rw [hempty.mp rfl] at hc; exact nomatch hc
    | cons d pause => rw [← Option.some_inj.mp hc]; exact hpause d mem_cons_self
  have hlines : ∀ c ∈ pause ++ text, onLine c := by
    intro c hc
    rcases mem_append.mp hc with hc | hc
    · rw [onLine, bne_iff_ne]
      rintro rfl
      exact absurd (hpause _ hc) (by decide)
    · exact hline c hc
  have hcourtesy : courtesy.replaceAll (fun _ => "") s = s := by
    rw [replaceAll, hs, replaceFrom_of_none (fun _ _ => rfl) _ (hverb.courtesy_matchAt _), ← hs,
      String.ofList_toList]
  have hstrip : strip s = s := strip_of_trimmed (by rw [hs]; exact trimmed_verb hverb hempty htext)
  have hrest : strip (ofList (pause ++ text)) = ofList text := by
    have hblank : ∀ c ∈ pause, isBlank c := fun c hc => isBlank_of_isSpacing (hpause c hc)
    have hwhole : (ofList (pause ++ text)).toList = pause ++ (text ++ []) := by
      rw [toList_ofList, append_nil]
    rw [strip_of_blanks hwhole hblank (forall_mem_nil _)]
    exact strip_of_trimmed (by rw [toList_ofList]; exact htext)
  have hknown := hverb.known
  rw [flowVerb?, hcourtesy, hstrip]
  rw [hverb.forEach_match? hs, hverb.headWord_match? hs hmore hlines]
  change (if knownVerbs.contains (lower (ofList verb)) = true
    then some (lower (ofList verb), strip (ofList (pause ++ text))) else none) = _
  rw [if_pos hknown, hrest]

end Loom.Outline
