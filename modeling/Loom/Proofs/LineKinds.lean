import Loom.Proofs.OneLine

/-!
# Kinds of Lines

What a line of the flow is turned into depends on its kind: a section, a numbered step, a
header, or none of these. The kinds are given by patterns, and a pattern looks for one way
to fit among many. Here each kind is described by what the line is made of, without a word
about the search: `IsHeader` says that a line is the words of a header, a condition and a
colon.

The step between the two is made once for all patterns. `Goes` is what has to hold of a
place so that a pattern fits there and something else holds where it got to. Read this way,
the parts of a pattern turn into the parts of a line, one by one.
-/

namespace Loom.Text.Pattern

open List

variable {p : Pattern} {here : Place} {K : Place → Prop} {cs u v a : List Char} {c : Char}
  {s w : String}

/-- What a pattern asks of a place, to get from there to a place with a property. -/
def Goes : Pattern → Place → (Place → Prop) → Prop
  | nothing, here, K => K here
  | one accepts, here, K => ∃ c cs, here.rest = c :: cs ∧ accepts c = true ∧ K ⟨some c, cs⟩
  | seq p q, here, K => p.Goes here fun next => q.Goes next K
  | alt p q, here, K => p.Goes here K ∨ q.Goes here K
  | many accepts, here, K | few accepts, here, K =>
    ∃ w cs, here.rest = w ++ cs ∧ (∀ c ∈ w, accepts c = true) ∧ K ⟨lastOf here.before w, cs⟩
  | repeated _, _, _ => False
  | named _ p, here, K => p.Goes here K
  | start, here, K => here.before = none ∧ K here
  | finish, here, K => (here.rest = [] ∨ here.rest = ['\n']) ∧ K here
  | ended, here, K => here.rest = [] ∧ K here
  | edge, here, K => here.atEdge = true ∧ K here

theorem goes_append {q : Pattern} : (p ++ q).Goes here K ↔ p.Goes here fun next => q.Goes next K :=
  Iff.rfl

theorem goes_alt {q : Pattern} : (alt p q).Goes here K ↔ p.Goes here K ∨ q.Goes here K := Iff.rfl

section Search

variable {β : Type} {accepts : Char → Bool}

theorem isSome_runMany_iff {k : Place → Option β} {before : Option Char} :
    (runMany accepts k before cs).isSome ↔ ∃ w rest, cs = w ++ rest ∧
      (∀ c ∈ w, accepts c) ∧ (k ⟨lastOf before w, rest⟩).isSome := by
  constructor
  · intro h
    obtain ⟨r, hr⟩ := Option.isSome_iff_exists.mp h
    obtain ⟨w, rest, hcs, hw, hk⟩ := passes_of_runMany hr
    exact ⟨w, rest, hcs, hw, Option.isSome_of_eq_some hk⟩
  · rintro ⟨w, rest, rfl, hw, hk⟩
    induction w generalizing before with
    | nil =>
      cases rest with
      | nil => exact hk
      | cons c rest =>
        rw [nil_append, runMany]
        split
        · split
          · rfl
          · exact hk
        · exact hk
    | cons c w ih =>
      rw [lastOf_cons] at hk
      have hsome := ih (fun d hd => hw d (mem_cons_of_mem c hd)) hk
      obtain ⟨r, hr⟩ := Option.isSome_iff_exists.mp hsome
      rw [cons_append, runMany, if_pos (hw c mem_cons_self), hr]
      rfl

theorem isSome_runFew (k : Place → Option β) (before : Option Char) (cs : List Char) :
    (runFew accepts k before cs).isSome = (runMany accepts k before cs).isSome := by
  induction cs generalizing before with
  | nil => rfl
  | cons c cs ih =>
    rw [runFew, runMany]
    cases k ⟨before, c :: cs⟩ <;> cases accepts c <;>
      cases hmany : runMany accepts k (some c) cs <;> simp [hmany, ih]

theorem isSome_run_iff (hp : p.repeats = false) {k : Place → Groups → Option β}
    (hk : ∀ here gs, (k here gs).isSome ↔ K here) (here : Place) (gs : Groups) :
    (p.run here gs k).isSome ↔ p.Goes here K := by
  induction p generalizing here gs k K with
  | nothing => exact hk here gs
  | one accepts =>
    rw [run, Goes]
    cases here.rest with
    | nil => simp
    | cons c cs => by_cases hc : accepts c = true <;> simp [hc, hk]
  | seq p q ihp ihq =>
    obtain ⟨hp, hq⟩ := Bool.or_eq_false_iff.mp hp
    exact ihp hp (fun next gs' => ihq hq hk next gs') here gs
  | alt p q ihp ihq =>
    obtain ⟨hp, hq⟩ := Bool.or_eq_false_iff.mp hp
    have hfirst := ihp hp hk here gs
    have hsecond := ihq hq hk here gs
    rw [Goes, ← hfirst, ← hsecond, run]
    cases p.run here gs k <;> simp
  | many accepts =>
    rw [run, Goes, isSome_runMany_iff]
    simp only [hk]
  | few accepts =>
    rw [run, Goes, isSome_runFew, isSome_runMany_iff]
    simp only [hk]
  | repeated p => cases hp
  | named name p ih => exact ih hp (fun next gs' => hk next _) here gs
  | start =>
    rw [run, Goes]
    cases here.before <;> simp [hk]
  | finish =>
    have hend : (here.rest.isEmpty || here.rest == ['\n']) ↔
        here.rest = [] ∨ here.rest = ['\n'] := by
      rw [Bool.or_eq_true, List.isEmpty_iff, beq_iff_eq]
    rw [run, Goes, ← hend, ← hk here gs]
    split <;> simp [*]
  | ended =>
    rw [run, Goes]
    cases hrest : here.rest <;> simp [hk]
  | edge =>
    rw [run, Goes]
    cases here.atEdge <;> simp [hk]

theorem fits_iff (hp : p.repeats = false) (s : String) :
    p.fits s ↔ p.Goes ⟨none, s.toList⟩ fun _ => True :=
  isSome_run_iff hp (fun _ _ => iff_of_true rfl trivial) _ []

end Search

end Loom.Text.Pattern

namespace Loom.Outline

open Loom.Text Loom.Text.Pattern List

/-! ### Words and blanks -/

/-- The letters of a word, in any case. -/
def Spells (s : String) (u : List Char) : Prop :=
  List.Forall₂ (fun letter c => sameLetter letter c = true) s.toList u

def Blanks (w : List Char) : Prop := ∀ c ∈ w, isBlank c = true

theorem Spells.letters (h : Spells s u) (hs : s.toList.all isAsciiLetter) :
    ∀ c ∈ u, isLetterLike c := by
  unfold Spells at h
  generalize s.toList = letters at h hs
  induction h with
  | nil => exact forall_mem_nil _
  | cons hc _ ih =>
    rw [all_cons, Bool.and_eq_true] at hs
    exact forall_mem_cons.mpr ⟨isLetterLike_of_sameLetter hs.1 hc, ih hs.2⟩

theorem Spells.ne_nil (h : Spells s u) (hs : s.toList ≠ []) : u ≠ [] := by
  rintro rfl
  unfold Spells at h
  cases hlist : s.toList with
  | nil => exact hs hlist
  | cons letter letters =>
    rw [hlist] at h
    cases h

theorem goes_word (hs : s.toList ≠ []) : (word s).Goes here K ↔
      ∃ u cs, here.rest = u ++ cs ∧ Spells s u ∧ K ⟨u.getLast?, cs⟩ := by
  have hall : ∀ (letters : List Char) (here : Place),
      (letters.foldr (fun c p => seq (one (sameLetter c)) p) nothing).Goes here K ↔
        ∃ u cs, here.rest = u ++ cs ∧
          List.Forall₂ (fun letter c => sameLetter letter c = true) letters u ∧
          K ⟨lastOf here.before u, cs⟩ := by
    intro letters
    induction letters with
    | nil =>
      intro here
      constructor
      · intro h
        exact ⟨[], here.rest, rfl, .nil, h⟩
      · rintro ⟨_, cs, hcs, ⟨⟩, h⟩
        rw [nil_append] at hcs
        rwa [← hcs] at h
    | cons letter letters ih =>
      intro here
      constructor
      · rintro ⟨c, cs, hrest, hc, h⟩
        obtain ⟨u, rest, rfl, hu, h⟩ := (ih _).mp h
        exact ⟨c :: u, rest, hrest, .cons hc hu, by rwa [lastOf_cons]⟩
      · rintro ⟨_, rest, hrest, hu, h⟩
        cases hu with
        | @cons _ c _ u hc hu =>
          rw [lastOf_cons] at h
          exact ⟨c, u ++ rest, hrest, hc, (ih _).mpr ⟨u, rest, rfl, hu, h⟩⟩
  rw [word, hall]
  have hlast : ∀ u, Spells s u → lastOf here.before u = u.getLast? := by
    intro u hu
    rw [lastOf, getLast?_eq_some_getLast (hu.ne_nil hs)]
    rfl
  constructor
  · rintro ⟨u, cs, hcs, hu, h⟩
    exact ⟨u, cs, hcs, hu, hlast u hu ▸ h⟩
  · rintro ⟨u, cs, hcs, hu, h⟩
    exact ⟨u, cs, hcs, hu, (hlast u hu).symm ▸ h⟩

/-! ### Lines -/

/-- The end of a text: it holds no line feed, and its last character is not blank. -/
structure IsTail (cs : List Char) : Prop where
  onLine : ∀ c ∈ cs, onLine c
  last : ∀ c, cs.getLast? = some c → isBlank c = false

/-- A line is a text after some blanks. -/
structure Stands (s : String) (cs : List Char) : Prop extends IsTail cs where
  first : ∀ c, cs.head? = some c → isBlank c = false
  indent : ∃ w, s.toList = w ++ cs ∧ Blanks w

theorem IsTail.of_append (h : IsTail (u ++ v)) : IsTail v := by
  refine ⟨fun c hc => h.onLine c (mem_append_right u hc), fun c hc => h.last c ?_⟩
  rw [getLast?_append, hc]
  rfl

theorem IsTail.eq_nil (h : IsTail cs) (hblank : Blanks cs) : cs = [] := by
  by_contra hne
  have hlast := h.last _ (getLast?_eq_some_getLast hne)
  rw [hblank _ (getLast_mem hne)] at hlast
  cases hlast

theorem IsTail.exists_trimmed (h : IsTail cs) (hne : cs ≠ []) :
    ∃ w u, cs = w ++ u ∧ Blanks w ∧ u ≠ [] ∧ Trimmed isBlank u ∧
      collapse (String.ofList u) = collapse (String.ofList cs) := by
  have hcut : cs = cs.takeWhile isBlank ++ cs.dropWhile isBlank := takeWhile_append_dropWhile.symm
  have hblanks : Blanks (cs.takeWhile isBlank) := fun c hc => mem_takeWhile_imp hc
  have htail := h
  rw [hcut] at htail
  refine ⟨_, _, hcut, hblanks, fun hnil => ?_, ⟨head_dropWhile isBlank cs, htail.of_append.last⟩, ?_⟩
  · rw [hnil, append_nil] at hcut
    exact hne (h.eq_nil (hcut ▸ hblanks))
  · have hstrip := @strip_of_blanks (String.ofList cs) (cs.takeWhile isBlank)
      (cs.dropWhile isBlank) [] (by rw [append_nil, ← hcut, String.toList_ofList]) hblanks
      (forall_mem_nil _)
    rw [collapse_eq, collapse_eq, hstrip]

theorem stands_of_append {w : List Char} (hs : s.toList = w ++ cs) (hw : Blanks w)
    (hcs : Trimmed isBlank cs) (hline : ∀ c ∈ cs, onLine c) : Stands s cs :=
  ⟨⟨hline, hcs.last⟩, hcs.first, w, hs, hw⟩

theorem toList_stripEnd_of_nil (h : (strip s).toList = []) : (stripEnd s).toList = [] := by
  obtain ⟨after, hafter, hs⟩ := exists_eq_strip s
  rw [stripEnd, String.toList_ofList, dropEndWhile, reverse_eq_nil_iff, dropWhile_eq_nil_iff]
  intro c hc
  rw [mem_reverse, hs, h, nil_append] at hc
  exact (mem_append.mp hc).elim (fun hc => mem_takeWhile_imp hc) (hafter c)

theorem isEmpty_stripEnd (s : String) : (stripEnd s).isEmpty = (strip s).toList.isEmpty := by
  rw [Bool.eq_iff_iff, String.isEmpty_iff, List.isEmpty_iff, ← String.toList_eq_nil_iff]
  refine ⟨fun hend => ?_, toList_stripEnd_of_nil⟩
  by_contra hne
  rw [toList_stripEnd hne] at hend
  exact hne (append_eq_nil_iff.mp hend).2

theorem stands_stripEnd (h : ∀ c ∈ s.toList, onLine c) :
    Stands (stripEnd s) (strip s).toList := by
  have hline : ∀ c ∈ (strip s).toList, onLine c := by
    obtain ⟨after, _, hs⟩ := exists_eq_strip s
    intro c hc
    refine h c ?_
    rw [hs]
    simp [hc]
  by_cases hempty : (strip s).toList = []
  · exact stands_of_append (w := []) (by rw [toList_stripEnd_of_nil hempty, hempty]; rfl)
      (forall_mem_nil _) (trimmed_strip s) hline
  · exact stands_of_append (toList_stripEnd hempty) (fun c hc => mem_takeWhile_imp hc)
      (trimmed_strip s) hline

theorem takeWhile_append_of_head {p : Char → Bool} {w : List Char} (hw : ∀ c ∈ w, p c)
    (hcs : ∀ c, cs.head? = some c → p c = false) : (w ++ cs).takeWhile p = w := by
  rw [takeWhile_append_of_pos hw]
  cases cs with
  | nil => rw [takeWhile_nil, append_nil]
  | cons c cs => rw [takeWhile_cons_of_neg (by simp [hcs c rfl]), append_nil]

theorem Stands.goes_gap (h : Stands s cs)
    (hK : ∀ before c rest, K ⟨before, c :: rest⟩ → isBlank c = false)
    (hbefore : ∀ before before' rest, K ⟨before, rest⟩ → K ⟨before', rest⟩) :
    gap.Goes ⟨none, s.toList⟩ K ↔ K ⟨none, cs⟩ := by
  obtain ⟨w, hs, hw⟩ := h.indent
  constructor
  · rintro ⟨w', rest, hrest, hw', hgo⟩
    have hhead : ∀ c, rest.head? = some c → isBlank c = false := by
      intro c hc
      cases rest with
      | nil => cases hc
      | cons d rest =>
        cases hc
        exact hK _ _ _ hgo
    -- both are the blanks at the start of the line, and what comes after them
    have hsame : w ++ cs = w' ++ rest := hs.symm.trans hrest
    have hblanks : w = w' := by
      rw [← takeWhile_append_of_head hw h.first, hsame, takeWhile_append_of_head hw' hhead]
    rw [hblanks] at hsame
    rw [append_cancel_left hsame]
    exact hbefore _ _ _ hgo
  · intro hgo
    exact ⟨w, cs, hs, hw, hbefore _ _ _ hgo⟩

theorem Stands.goes_word (h : Stands s cs) (hne : w.toList ≠ [])
    (hw : w.toList.all isAsciiLetter) :
    gap.Goes ⟨none, s.toList⟩ (fun next => (word w).Goes next K) ↔
      ∃ u rest, cs = u ++ rest ∧ Spells w u ∧ K ⟨u.getLast?, rest⟩ := by
  simp only [Outline.goes_word hne]
  refine h.goes_gap ?_ fun _ _ _ hgo => hgo
  rintro before c rest ⟨u, _, hrest, hu, _⟩
  obtain ⟨d, u, rfl⟩ := exists_cons_of_ne_nil (hu.ne_nil hne)
  cases hrest
  exact (of_isLetterLike (hu.letters hw _ mem_cons_self)).1

theorem goes_end : (gap ++ finish).Goes here (fun _ => True) ↔ Blanks here.rest := by
  constructor
  · rintro ⟨w, cs, hrest, hw, hend, _⟩ c hc
    rw [hrest] at hc
    exact (mem_append.mp hc).elim (hw c) (isBlank_of_finish hend c)
  · intro h
    exact ⟨here.rest, [], (append_nil _).symm, h, .inl rfl, trivial⟩

/-! ### Sections and steps -/

def isCapital (c : Char) : Bool := 'A' ≤ c && c ≤ 'Z'

/-- A letter, a point, and the word for the flow. -/
def IsFlow (cs : List Char) : Prop :=
  ∃ c w u, cs = c :: '.' :: (w ++ u) ∧ isLetterLike c = true ∧ Blanks w ∧ Spells "flow" u

/-- A capital letter, a point, and something more. -/
def IsSection (cs : List Char) : Prop :=
  ∃ c rest, cs = c :: '.' :: rest ∧ isCapital c = true ∧ rest ≠ []

/-- A number, a point, and something more. -/
def IsStep (cs : List Char) : Prop :=
  ∃ number rest, cs = number ++ '.' :: rest ∧ number ≠ [] ∧ (∀ c ∈ number, isDigit c = true) ∧
    rest ≠ []

theorem isBlank_of_isCapital (h : isCapital c) : isBlank c = false := by
  refine isBlank_of_isAsciiLetter (Bool.or_eq_true_iff.mpr (.inl ?_))
  simp only [isCapital, Bool.and_eq_true, decide_eq_true_eq] at h
  exact decide_eq_true h

section Kinds

variable {s : String} {cs : List Char}

theorem flowLine_fits_iff (h : Stands s cs) : flowLine.fits s ↔ IsFlow cs := by
  rw [fits_iff (by decide), flowLine]
  simp only [goes_append]
  refine (h.goes_gap ?_ fun _ _ _ hgo => hgo).trans ?_
  · rintro _ c rest ⟨_, _, ⟨⟩, hc, _⟩
    exact (of_isLetterLike hc).1
  constructor
  · rintro ⟨c, _, hcs, hc, d, _, rfl, hd, w, _, rfl, hw, hword⟩
    obtain ⟨u, rest, rfl, hu, hend⟩ := (goes_word (by decide)).mp hword
    change cs = _ at hcs
    have htail : IsTail (c :: d :: (w ++ u) ++ rest) := by
      rw [cons_append, cons_append, append_assoc, ← hcs]
      exact h.toIsTail
    rw [htail.of_append.eq_nil (goes_end.mp hend), append_nil, eq_of_beq hd] at hcs
    exact ⟨c, w, u, hcs, hc, hw, hu⟩
  · rintro ⟨c, w, u, rfl, hc, hw, hu⟩
    refine ⟨c, _, rfl, hc, '.', _, rfl, rfl, w, u, rfl, hw, ?_⟩
    exact (goes_word (by decide)).mpr
      ⟨u, [], (append_nil u).symm, hu, goes_end.mpr (forall_mem_nil _)⟩

theorem goes_rest (h : IsTail here.rest) :
    (chr '.' ++ gap ++ named "rest" (few1 Pattern.onLine) ++ gap ++ finish).Goes here
      (fun _ => True) ↔ ∃ rest, here.rest = '.' :: rest ∧ rest ≠ [] := by
  constructor
  · rintro ⟨d, _, hrest, hd, w, _, rfl, _, c, _, rfl, _⟩
    exact ⟨_, eq_of_beq hd ▸ hrest, by simp⟩
  · rintro ⟨_, hrest, hne⟩
    obtain ⟨c, rest, rfl⟩ := exists_cons_of_ne_nil hne
    have hline := h.onLine
    rw [hrest, forall_mem_cons, forall_mem_cons] at hline
    exact ⟨'.', _, hrest, rfl, [], _, rfl, forall_mem_nil _, c, rest, rfl, hline.2.1, rest, [],
      (append_nil rest).symm, hline.2.2, goes_end.mpr (forall_mem_nil _)⟩

theorem sectionLine_fits_iff (h : Stands s cs) : sectionLine.fits s ↔ IsSection cs := by
  rw [fits_iff (by decide), sectionLine]
  simp only [goes_append]
  refine (h.goes_gap ?_ fun _ _ _ hgo => hgo).trans ?_
  · rintro _ c rest ⟨_, _, ⟨⟩, hc, _⟩
    exact isBlank_of_isCapital hc
  constructor
  · rintro ⟨c, cs', hcs, hc, hgo⟩
    obtain rfl : cs = _ := hcs
    have htail : IsTail ([c] ++ cs') := h.toIsTail
    obtain ⟨rest, rfl, hne⟩ := (goes_rest htail.of_append).mp hgo
    exact ⟨c, rest, rfl, hc, hne⟩
  · rintro ⟨c, rest, rfl, hc, hne⟩
    have htail : IsTail ([c] ++ '.' :: rest) := h.toIsTail
    exact ⟨c, _, rfl, hc, (goes_rest htail.of_append).mpr ⟨rest, rfl, hne⟩⟩

theorem bulletLine_fits_iff (h : Stands s cs) : bulletLine.fits s ↔ IsStep cs := by
  rw [fits_iff (by decide), bulletLine]
  simp only [goes_append]
  refine (h.goes_gap ?_ fun _ _ _ hgo => hgo).trans ?_
  · rintro _ c rest ⟨_, _, ⟨⟩, hc, _⟩
    exact isBlank_of_isDigit hc
  constructor
  · rintro ⟨c, _, hcs, hc, more, cs', rfl, hmore, hgo⟩
    obtain rfl : cs = c :: more ++ cs' := hcs
    obtain ⟨rest, rfl, hne⟩ := (goes_rest h.of_append).mp hgo
    exact ⟨c :: more, rest, rfl, cons_ne_nil _ _, forall_mem_cons.mpr ⟨hc, hmore⟩, hne⟩
  · rintro ⟨number, rest, rfl, hnumber, hdigits, hne⟩
    obtain ⟨c, more, rfl⟩ := exists_cons_of_ne_nil hnumber
    rw [forall_mem_cons] at hdigits
    exact ⟨c, _, rfl, hdigits.1, more, _, rfl, hdigits.2,
      (goes_rest h.of_append).mpr ⟨rest, rfl, hne⟩⟩

theorem chooseLine_fits_iff (h : Stands s cs) : chooseLine.fits s ↔ Spells "choose" cs := by
  rw [fits_iff (by decide), chooseLine]
  simp only [goes_append]
  rw [h.goes_word (by decide) (by decide)]
  constructor
  · rintro ⟨u, rest, rfl, hu, hend⟩
    rwa [h.of_append.eq_nil (goes_end.mp hend), append_nil]
  · intro hu
    exact ⟨cs, [], (append_nil cs).symm, hu, goes_end.mpr (forall_mem_nil _)⟩

end Kinds

/-! ### Headers -/

def IsSpace (w : List Char) : Prop := w ≠ [] ∧ Blanks w

def startsName (c : Char) : Bool := isLetterLike c || c == '_'

def inName (c : Char) : Bool := isLetterLike c || ('0' ≤ c && c ≤ '9') || c == '_'

def IsName (u : List Char) : Prop :=
  ∃ c rest, u = c :: rest ∧ startsName c = true ∧ ∀ d ∈ rest, inName d = true

/-- The words of a header that a condition follows. -/
inductive Asks : List Char → Prop where
  | when {u : List Char} (hu : Spells "when" u) : Asks u
  | elseIf {u w v : List Char} (hu : Spells "else" u) (hw : IsSpace w) (hv : Spells "if" v) :
      Asks (u ++ (w ++ v))
  | range {u w v : List Char} (hu : IsName u) (hw : IsSpace w) (hv : Spells "in" v) :
      Asks (u ++ (w ++ v))

/-- A condition of a header: a blank, and something more. -/
def IsCondition (x : List Char) : Prop := ∃ c rest, x = c :: rest ∧ isBlank c = true ∧ rest ≠ []

/-- What may follow a word without being part of it. -/
def IsApart (x : List Char) : Prop := ∃ c rest, x = c :: rest ∧ isWord c = false

inductive IsHeader : List Char → Prop where
  | asks {a x : List Char} (ha : Asks a) (hx : IsCondition x) : IsHeader (a ++ (x ++ [':']))
  | otherwise {u w : List Char} (hu : Spells "otherwise" u) (hw : Blanks w) :
      IsHeader (u ++ (w ++ [':']))
  | repeat {u x : List Char} (hu : Spells "repeat" u) (hx : IsApart x) :
      IsHeader (u ++ (x ++ [':']))

theorem isDigit_of_startsName (h : startsName c) : isDigit c = false := by
  rw [startsName, Bool.or_eq_true, beq_iff_eq] at h
  rcases h with h | rfl
  · exact (of_isLetterLike h).2.2
  · decide

theorem isBlank_of_startsName (h : startsName c) : isBlank c = false := by
  rw [startsName, Bool.or_eq_true, beq_iff_eq] at h
  rcases h with h | rfl
  · exact (of_isLetterLike h).1
  · decide

theorem goes_space (hbefore : ∀ before before' rest, K ⟨before, rest⟩ → K ⟨before', rest⟩) :
    space.Goes here K ↔ ∃ w rest, here.rest = w ++ rest ∧ IsSpace w ∧ K ⟨none, rest⟩ := by
  constructor
  · rintro ⟨c, _, hrest, hc, w, rest, rfl, hw, hgo⟩
    exact ⟨c :: w, rest, hrest, ⟨cons_ne_nil _ _, forall_mem_cons.mpr ⟨hc, hw⟩⟩, hbefore _ _ _ hgo⟩
  · rintro ⟨w, rest, hrest, ⟨hne, hw⟩, hgo⟩
    obtain ⟨c, w, rfl⟩ := exists_cons_of_ne_nil hne
    rw [Blanks, forall_mem_cons] at hw
    exact ⟨c, _, hrest, hw.1, w, rest, rfl, hw.2, hbefore _ _ _ hgo⟩

theorem goes_headerEnd (h : IsTail here.rest) :
    headerEnd.Goes here (fun _ => True) ↔ ∃ x, here.rest = x ++ [':'] ∧ x ≠ [] := by
  constructor
  · rintro ⟨c, _, hrest, _, w, _, rfl, _, d, rest, rfl, hd, hend⟩
    rw [show here.rest = (c :: w ++ [d]) ++ rest by rw [append_assoc]; exact hrest] at h ⊢
    rw [h.of_append.eq_nil (goes_end.mp hend), append_nil, eq_of_beq hd]
    exact ⟨c :: w, rfl, cons_ne_nil _ _⟩
  · rintro ⟨x, hrest, hne⟩
    obtain ⟨c, w, rfl⟩ := exists_cons_of_ne_nil hne
    have hline := h.onLine
    rw [hrest] at hline
    exact ⟨c, _, hrest, hline c (by simp), w, _, rfl, fun d hd => hline d (by simp [hd]), ':', [],
      rfl, rfl, goes_end.mpr (forall_mem_nil _)⟩

theorem goes_condition (h : IsTail here.rest) :
    space.Goes here (fun next => headerEnd.Goes next fun _ => True) ↔
      ∃ x, here.rest = x ++ [':'] ∧ IsCondition x := by
  rw [goes_space fun _ _ _ hgo => hgo]
  constructor
  · rintro ⟨w, rest, hrest, ⟨hne, hw⟩, hgo⟩
    obtain ⟨c, w, rfl⟩ := exists_cons_of_ne_nil hne
    rw [hrest] at h
    obtain ⟨x, rfl, hx⟩ := (goes_headerEnd h.of_append).mp hgo
    exact ⟨c :: w ++ x, by rw [hrest, append_assoc], c, w ++ x, rfl,
      hw c mem_cons_self, by simp [hx]⟩
  · rintro ⟨_, hrest, c, x, rfl, hc, hx⟩
    rw [hrest] at h
    have htail : IsTail ([c] ++ (x ++ [':'])) := h
    exact ⟨[c], x ++ [':'], hrest, ⟨cons_ne_nil _ _, by simpa [Blanks] using hc⟩,
      (goes_headerEnd htail.of_append).mpr ⟨x, rfl, hx⟩⟩

theorem goes_lastWord (h : IsTail here.rest) (hne : w.toList ≠ []) :
    space.Goes here (fun next => (word w).Goes next fun next =>
        space.Goes next fun next => headerEnd.Goes next fun _ => True) ↔
      ∃ b v x, here.rest = b ++ (v ++ (x ++ [':'])) ∧ IsSpace b ∧ Spells w v ∧ IsCondition x := by
  simp only [goes_word hne]
  rw [goes_space fun _ _ _ hgo => hgo]
  constructor
  · rintro ⟨b, _, hrest, hb, v, rest, rfl, hv, hgo⟩
    rw [hrest] at h
    obtain ⟨x, rfl, hx⟩ := (goes_condition h.of_append.of_append).mp hgo
    exact ⟨b, v, x, hrest, hb, hv, hx⟩
  · rintro ⟨b, v, x, hrest, hb, hv, hx⟩
    rw [hrest] at h
    exact ⟨b, _, hrest, hb, v, _, rfl, hv, (goes_condition h.of_append.of_append).mpr ⟨x, rfl, hx⟩⟩

section Headers

variable {s : String} {cs : List Char}

theorem rangeLine_goes_iff (h : Stands s cs) : rangeLine.Goes ⟨none, s.toList⟩ (fun _ => True) ↔
      ∃ u b v x, cs = u ++ (b ++ (v ++ (x ++ [':']))) ∧ IsName u ∧ IsSpace b ∧ Spells "in" v ∧
        IsCondition x := by
  rw [rangeLine]
  simp only [goes_append]
  refine (h.goes_gap ?_ fun _ _ _ hgo => hgo).trans ?_
  · rintro _ c rest ⟨_, _, ⟨⟩, hc, _⟩
    exact isBlank_of_startsName hc
  constructor
  · rintro ⟨c, _, hcs, hc, w, rest, rfl, hw, hgo⟩
    obtain rfl : cs = _ := hcs
    have htail : IsTail (c :: w ++ rest) := h.toIsTail
    obtain ⟨b, v, x, hrest, hb, hv, hx⟩ := (goes_lastWord htail.of_append (by decide)).mp hgo
    obtain rfl : rest = _ := hrest
    exact ⟨c :: w, b, v, x, rfl, ⟨c, w, rfl, hc, hw⟩, hb, hv, hx⟩
  · rintro ⟨_, b, v, x, rfl, ⟨c, w, rfl, hc, hw⟩, hb, hv, hx⟩
    refine ⟨c, _, rfl, hc, w, _, rfl, hw, ?_⟩
    exact (goes_lastWord h.of_append (by decide)).mpr ⟨b, v, x, rfl, hb, hv, hx⟩

theorem goes_apart {rest : List Char} (hu : Spells w u) (hw : w.toList.all isAsciiLetter)
    (hne : w.toList ≠ []) (h : IsTail rest) :
    edge.Goes ⟨u.getLast?, rest⟩ (fun next => headerEnd.Goes next fun _ => True) ↔
      ∃ x, rest = x ++ [':'] ∧ IsApart x := by
  have hword : u.getLast?.any isWord := by
    rw [getLast?_eq_some_getLast (hu.ne_nil hne)]
    exact (of_isLetterLike (hu.letters hw _ (getLast_mem _))).2.1
  have hedge : Place.atEdge ⟨u.getLast?, rest⟩ ↔ rest.head?.any isWord = false := by
    rw [Place.atEdge, hword]
    simp
  change Place.atEdge _ = true ∧ headerEnd.Goes ⟨u.getLast?, rest⟩ _ ↔ _
  rw [hedge, goes_headerEnd h]
  constructor
  · rintro ⟨hhead, x, rfl, hx⟩
    obtain ⟨c, x, rfl⟩ := exists_cons_of_ne_nil hx
    exact ⟨c :: x, rfl, c, x, rfl, hhead⟩
  · rintro ⟨_, rfl, c, x, rfl, hc⟩
    exact ⟨hc, c :: x, rfl, cons_ne_nil _ _⟩

theorem isHeader_iff (h : Stands s cs) :
    (clauseLine.fits s || loopLine.fits s) ↔ IsHeader cs := by
  rw [Bool.or_eq_true, fits_iff (by decide), fits_iff (by decide)]
  simp only [clauseLine, loopLine, oneOf, goes_alt, rangeLine_goes_iff h, goes_append,
    h.goes_word (w := "when") (by decide) (by decide),
    h.goes_word (w := "else") (by decide) (by decide),
    h.goes_word (w := "otherwise") (by decide) (by decide),
    h.goes_word (w := "repeat") (by decide) (by decide)]
  constructor
  · rintro ((⟨u, rest, rfl, hu, hgo⟩ | ⟨u, rest, rfl, hu, hgo⟩ | ⟨u, rest, rfl, hu, hgo⟩) |
      ⟨u, rest, rfl, hu, hgo⟩ | ⟨u, b, v, x, rfl, hu, hb, hv, hx⟩)
    · obtain ⟨x, hrest, hx⟩ := (goes_condition h.of_append).mp hgo
      obtain rfl : rest = _ := hrest
      exact .asks (.when hu) hx
    · obtain ⟨b, v, x, hrest, hb, hv, hx⟩ := (goes_lastWord h.of_append (by decide)).mp hgo
      obtain rfl : rest = _ := hrest
      have hheader := IsHeader.asks (.elseIf hu hb hv) hx
      rwa [append_assoc, append_assoc] at hheader
    · obtain ⟨w, _, hrest, hw, c, rest', rfl, hc, hend⟩ := hgo
      obtain rfl : rest = _ := hrest
      have htail : IsTail ((u ++ (w ++ [c])) ++ rest') := by
        rw [append_assoc, append_assoc]
        exact h.toIsTail
      rw [htail.of_append.eq_nil (goes_end.mp hend), eq_of_beq hc]
      exact .otherwise hu hw
    · obtain ⟨x, rfl, hx⟩ := (goes_apart hu (by decide) (by decide) h.of_append).mp hgo
      exact .repeat hu hx
    · have hheader := IsHeader.asks (.range hu hb hv) hx
      rwa [append_assoc, append_assoc] at hheader
  · intro hheader
    cases hheader with
    | asks ha hx =>
      cases ha with
      | when hu =>
        exact .inl (.inl ⟨_, _, rfl, hu, (goes_condition h.of_append).mpr ⟨_, rfl, hx⟩⟩)
      | elseIf hu hb hv =>
        rw [append_assoc, append_assoc] at h ⊢
        exact .inl (.inr (.inl ⟨_, _, rfl, hu,
          (goes_lastWord h.of_append (by decide)).mpr ⟨_, _, _, rfl, hb, hv, hx⟩⟩))
      | range hu hb hv =>
        rw [append_assoc, append_assoc]
        exact .inr (.inr ⟨_, _, _, _, rfl, hu, hb, hv, hx⟩)
    | otherwise hu hw =>
      exact .inl (.inr (.inr ⟨_, _, rfl, hu, _, _, rfl, hw, ':', [], rfl, rfl,
        goes_end.mpr (forall_mem_nil _)⟩))
    | «repeat» hu hx =>
      exact .inr (.inl ⟨_, _, rfl, hu,
        (goes_apart hu (by decide) (by decide) h.of_append).mpr ⟨_, rfl, hx⟩⟩)

end Headers

theorem IsName.plain (h : IsName u) : ∀ c ∈ u, isBlank c = false := by
  obtain ⟨c, rest, rfl, hc, hrest⟩ := h
  refine forall_mem_cons.mpr ⟨isBlank_of_startsName hc, fun d hd => ?_⟩
  have hd := hrest d hd
  simp only [inName, Bool.or_eq_true, Bool.and_eq_true, decide_eq_true_eq, beq_iff_eq] at hd
  rcases hd with (hd | hd) | rfl
  · exact (of_isLetterLike hd).1
  · exact isBlank_of_toNat hd
  · decide

theorem Asks.last (h : Asks a) : ∀ c, a.getLast? = some c → isSpacing c = false := by
  have hword : ∀ {w : String} {v : List Char}, Spells w v → w.toList.all isAsciiLetter →
      ∀ c, v.getLast? = some c → isSpacing c = false := fun hv hw c hc =>
    isSpacing_of_not_isBlank (of_isLetterLike (hv.letters hw c (mem_of_getLast? hc))).1
  intro c hc
  cases h with
  | when hu => exact hword hu (by decide) c hc
  | elseIf _ _ hv | range _ _ hv =>
    rw [← append_assoc, getLast?_append_of_ne_nil _ (hv.ne_nil (by decide))] at hc
    exact hword hv (by decide) c hc

/-! ### What leaves headers headers -/

/-- A change of texts that can be followed part by part, and keeps the parts of headers. -/
structure Keeps (S : List Char → List Char → Prop) : Prop where
  /-- A text may be cut where no run of spaces goes across. -/
  cut : ∀ {u v cs : List Char}, S (u ++ v) cs → (∀ c, u.getLast? = some c → isSpacing c = false) ∨
    (∀ c, v.head? = some c → isSpacing c = false) → ∃ u' v', cs = u' ++ v' ∧ S u u' ∧ S v v'
  ne_nil : ∀ {u u' : List Char}, S u u' → u ≠ [] → u' ≠ []
  blanks : ∀ {u u' : List Char}, S u u' → Blanks u → Blanks u'
  spells : ∀ {u u' : List Char} {w : String}, S u u' → Spells w u →
    w.toList.all isAsciiLetter → Spells w u'
  name : ∀ {u u' : List Char}, S u u' → IsName u → IsName u'
  colon : ∀ {u : List Char}, S [':'] u → u = [':']
  apart : ∀ {u u' : List Char}, S u u' → IsApart u → IsApart u'

namespace Keeps

variable {S : List Char → List Char → Prop}

theorem cut_word (hS : Keeps S) (hu : Spells w u) (hw : w.toList.all isAsciiLetter)
    (h : S (u ++ v) cs) : ∃ u' v', cs = u' ++ v' ∧ Spells w u' ∧ S v v' := by
  obtain ⟨u', v', hcs, hu', hv'⟩ := hS.cut h (.inl fun c hc =>
    isSpacing_of_not_isBlank (of_isLetterLike (hu.letters hw c (mem_of_getLast? hc))).1)
  exact ⟨u', v', hcs, hS.spells hu' hu hw, hv'⟩

theorem cut_colon (hS : Keeps S) (h : S (u ++ [':']) cs) : ∃ u', cs = u' ++ [':'] ∧ S u u' := by
  obtain ⟨u', v', hcs, hu', hv'⟩ := hS.cut h (.inr fun c hc => by cases hc; decide)
  rw [hS.colon hv'] at hcs
  exact ⟨u', hcs, hu'⟩

theorem cut_space (hS : Keeps S) {b : List Char} (hb : IsSpace b) (hv : Spells w v)
    (hw : w.toList.all isAsciiLetter) (hne : w.toList ≠ []) (h : S (b ++ v) cs) :
    ∃ b' v', cs = b' ++ v' ∧ IsSpace b' ∧ Spells w v' := by
  obtain ⟨c, v, rfl⟩ := exists_cons_of_ne_nil (hv.ne_nil hne)
  obtain ⟨b', v', hcs, hb', hv'⟩ := hS.cut h (.inr fun d hd => by
    cases hd
    exact isSpacing_of_not_isBlank (of_isLetterLike (hv.letters hw _ mem_cons_self)).1)
  exact ⟨b', v', hcs, ⟨hS.ne_nil hb' hb.1, hS.blanks hb' hb.2⟩, hS.spells hv' hv hw⟩

theorem asks (hS : Keeps S) {a' : List Char} (h : S a a') (ha : Asks a) : Asks a' := by
  cases ha with
  | when hu => exact .when (hS.spells h hu (by decide))
  | elseIf hu hb hv =>
    obtain ⟨u', rest, rfl, hu', h⟩ := hS.cut_word hu (by decide) h
    obtain ⟨b', v', rfl, hb', hv'⟩ := hS.cut_space hb hv (by decide) (by decide) h
    exact .elseIf hu' hb' hv'
  | range hu hb hv =>
    obtain ⟨u', rest, rfl, hu', h⟩ := hS.cut h (.inl fun c hc =>
      isSpacing_of_not_isBlank (hu.plain c (mem_of_getLast? hc)))
    obtain ⟨b', v', rfl, hb', hv'⟩ := hS.cut_space hb hv (by decide) (by decide) h
    exact .range (hS.name hu' hu) hb' hv'

theorem cut_asks (hS : Keeps S) {y : List Char} (ha : Asks a) (h : S (a ++ y) cs) :
    ∃ a' y', cs = a' ++ y' ∧ Asks a' ∧ S y y' := by
  obtain ⟨a', y', hcs, ha', hy'⟩ := hS.cut h (.inl ha.last)
  exact ⟨a', y', hcs, hS.asks ha' ha, hy'⟩

theorem header (hS : Keeps S) {cs' : List Char} (h : S cs cs') (hheader : IsHeader cs)
    (hcondition : ∀ a x x', cs = a ++ (x ++ [':']) → Asks a → S x x' → IsCondition x →
      IsCondition x') : IsHeader cs' := by
  cases hheader with
  | @asks a x ha hx =>
    obtain ⟨a', rest, rfl, ha', h⟩ := hS.cut_asks ha h
    obtain ⟨x', rfl, hx'⟩ := hS.cut_colon h
    exact .asks ha' (hcondition a x x' rfl ha hx' hx)
  | otherwise hu hw =>
    obtain ⟨u', rest, rfl, hu', h⟩ := hS.cut_word hu (by decide) h
    obtain ⟨w', rfl, hw'⟩ := hS.cut_colon h
    exact .otherwise hu' (hS.blanks hw' hw)
  | «repeat» hu hx =>
    obtain ⟨u', rest, rfl, hu', h⟩ := hS.cut_word hu (by decide) h
    obtain ⟨x', rfl, hx'⟩ := hS.cut_colon h
    exact .repeat hu' (hS.apart hx' hx)

end Keeps

end Loom.Outline
