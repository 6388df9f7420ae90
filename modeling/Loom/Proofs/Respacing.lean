import Loom.Proofs.NormalForm

/-!
# Spacing That Does Not Matter

Two outlines whose lines in the flow differ in their spacing only have the same normal form,
and so the same hash. What is set of such a line is its text with runs of spaces and tabs as
one space, so all that is to be shown is that its kind does not depend on how long its runs
are.

It does depend on it in one case. A condition of a header is a blank and something more, and
the something may be a second blank: `when  :` is a header and `when :` is not. Headers with
such a bare condition are left out.

Outlines are compared line by line: what a text is cut at is not changed here, so that a line
of one outline stands beside the line of the other that it became.
-/

namespace Loom.Outline

open Loom.Text Loom.Text.Pattern List Bool

variable {cs u v number rest : List Char} {s t : String} {part : Part}

/-! ### Texts with the same runs -/

/-- Two texts with the same runs of spaces and tabs, of any length. -/
def Alike (u v : List Char) : Prop := squeeze u = squeeze v

theorem split_squeeze {x y : List Char} (h : squeeze cs = x ++ y) :
    ∃ u v, cs = u ++ v ∧ squeeze u = x ∧ squeeze v = y := by
  suffices hfrom : ∀ inRun x, squeezeFrom inRun cs = x ++ y →
      ∃ u v, cs = u ++ v ∧ squeezeFrom inRun u = x ∧ squeeze v = y from hfrom false x h
  clear h x
  induction cs with
  | nil =>
    intro inRun x h
    obtain ⟨rfl, rfl⟩ := append_eq_nil_iff.mp h.symm
    exact ⟨[], [], rfl, rfl, rfl⟩
  | cons c cs ih =>
    intro inRun x h
    cases hc : isSpacing c with
    | true =>
      cases inRun with
      | true =>
        rw [squeezeFrom, hc] at h
        obtain ⟨u, v, rfl, hu, hv⟩ := ih true x h
        exact ⟨c :: u, v, rfl, by rw [squeezeFrom, hc]; exact hu, hv⟩
      | false =>
        cases x with
        | nil => exact ⟨[], c :: cs, rfl, rfl, h⟩
        | cons d x =>
          rw [squeezeFrom, hc] at h
          obtain ⟨rfl, htail⟩ := List.cons.inj h
          obtain ⟨u, v, rfl, hu, hv⟩ := ih true x htail
          refine ⟨c :: u, v, rfl, ?_, hv⟩
          rw [squeezeFrom, hc]
          exact congrArg (' ' :: ·) hu
    | false =>
      cases x with
      | nil =>
        refine ⟨[], c :: cs, rfl, rfl, ?_⟩
        rwa [squeezeFrom_of_head (by rintro _ ⟨⟩; exact hc)] at h
      | cons d x =>
        rw [squeezeFrom, hc] at h
        obtain ⟨rfl, htail⟩ := List.cons.inj h
        obtain ⟨u, v, rfl, hu, hv⟩ := ih false x htail
        refine ⟨c :: u, v, rfl, ?_, hv⟩
        rw [squeezeFrom, hc]
        exact congrArg (c :: ·) hu

theorem squeeze_append_of_last (h : ∀ c, u.getLast? = some c → isSpacing c = false)
    (v : List Char) : squeeze (u ++ v) = squeeze u ++ squeeze v := by
  have hlast : endsInRun false u = false := by
    rw [endsInRun]
    cases hu : u.getLast? with
    | none => rfl
    | some c => exact h c hu
  rw [squeeze, squeezeFrom_append, hlast]
  rfl

theorem Alike.eq_of_plain (h : Alike u v) (hu : ∀ c ∈ u, isSpacing c = false) : v = u := by
  rw [Alike, squeeze_of_plain hu] at h
  have hplain : (squeeze v).all (!isSpacing ·) := by
    rw [← h]
    simpa using hu
  rw [h, squeeze_eq_self hplain]

theorem head?_squeeze (cs : List Char) :
    (squeeze cs).head? = cs.head?.map fun c => if isSpacing c then ' ' else c := by
  cases cs with
  | nil => rfl
  | cons c cs =>
    rw [squeeze, squeezeFrom]
    cases hc : isSpacing c <;> simp [hc]

theorem squeeze_eq_nil (h : squeeze cs = []) : cs = [] := by
  have hhead := head?_squeeze cs
  rw [h] at hhead
  cases cs with
  | nil => rfl
  | cons c cs => cases hhead

theorem Alike.exists_cons {c : Char} (h : Alike (c :: u) v) :
    ∃ d v', v = d :: v' ∧ (d = c ∨ isSpacing c ∧ isSpacing d) := by
  cases v with
  | nil => exact absurd (squeeze_eq_nil (show squeeze (c :: u) = [] from h)) (cons_ne_nil _ _)
  | cons d v =>
    have hhead := (head?_squeeze (c :: u)).symm.trans ((congrArg head? h).trans
      (head?_squeeze (d :: v)))
    refine ⟨d, v, rfl, ?_⟩
    simp only [head?_cons, Option.map_some, Option.some.injEq] at hhead
    cases hc : isSpacing c <;> cases hd : isSpacing d <;> simp [hc, hd] at hhead ⊢
    · exact hhead.symm
    · rw [hhead] at hc
      cases hc
    · rw [← hhead] at hd
      cases hd

theorem mem_squeezeFrom_of_plain {c : Char} (hc : isSpacing c = false) (h : c ∈ cs) (inRun : Bool) :
    c ∈ squeezeFrom inRun cs := by
  induction cs generalizing inRun with
  | nil => cases h
  | cons d cs ih =>
    rw [squeezeFrom]
    rcases mem_cons.mp h with rfl | h
    · simp [hc]
    · split
      · split
        · exact ih h true
        · exact mem_cons_of_mem _ (ih h true)
      · exact mem_cons_of_mem _ (ih h false)

theorem Alike.forall_mem {p : Char → Bool} (hp : ∀ c, isSpacing c → p c) (h : Alike u v)
    (hu : ∀ c ∈ u, p c) : ∀ c ∈ v, p c := by
  intro c hc
  cases hspace : isSpacing c with
  | true => exact hp c hspace
  | false =>
    have hmem : c ∈ squeeze u := h ▸ mem_squeezeFrom_of_plain hspace hc false
    rcases mem_squeezeFrom hmem with rfl | hmem
    · cases hspace
    · exact hu c hmem

theorem Alike.blanks (h : Alike u v) (hu : Blanks u) : Blanks v :=
  h.forall_mem (fun _ => isBlank_of_isSpacing) hu

theorem keeps_alike : Keeps Alike where
  cut := by
    intro u v cs h hcut
    have hsplit : squeeze cs = squeeze u ++ squeeze v := by
      rcases hcut with hu | hv
      · rw [← h, squeeze_append_of_last hu]
      · rw [← h, squeeze_append u hv]
    obtain ⟨u', v', rfl, hu', hv'⟩ := split_squeeze hsplit
    exact ⟨u', v', rfl, hu'.symm, hv'.symm⟩
  ne_nil := by
    rintro u _ h hne rfl
    exact hne (squeeze_eq_nil h)
  blanks := Alike.blanks
  spells := by
    intro u u' w h hu hw
    rwa [h.eq_of_plain fun c hc =>
      isSpacing_of_not_isBlank (of_isLetterLike (hu.letters hw c hc)).1]
  name := by
    intro u u' h hu
    rwa [h.eq_of_plain fun c hc => isSpacing_of_not_isBlank (hu.plain c hc)]
  colon := fun h => h.eq_of_plain (by simp; decide)
  apart := by
    rintro _ v h ⟨c, rest, rfl, hc⟩
    obtain ⟨d, v, rfl, rfl | ⟨_, hd⟩⟩ := h.exists_cons
    · exact ⟨d, v, rfl, hc⟩
    · refine ⟨d, v, rfl, ?_⟩
      rw [isSpacing, or_eq_true, beq_iff_eq, beq_iff_eq] at hd
      rcases hd with rfl | rfl <;> decide

/-! ### Bare conditions -/

/-- A header whose condition is a run of spaces and tabs. -/
def IsBare (cs : List Char) : Prop :=
  ∃ a x, cs = a ++ (x ++ [':']) ∧ Asks a ∧ x ≠ [] ∧ ∀ c ∈ x, isSpacing c = true

theorem Alike.isSpacing (h : Alike u v) (hu : ∀ c ∈ u, isSpacing c) : ∀ c ∈ v, isSpacing c :=
  h.forall_mem (fun _ hc => hc) hu

theorem Alike.isBare (h : Alike u v) (hu : IsBare u) : IsBare v := by
  obtain ⟨a, x, rfl, ha, hne, hx⟩ := hu
  obtain ⟨a', rest, rfl, ha', h⟩ := keeps_alike.cut_asks ha h
  obtain ⟨x', rfl, hx'⟩ := keeps_alike.cut_colon h
  exact ⟨a', x', rfl, ha', keeps_alike.ne_nil hx' hne, hx'.isSpacing hx⟩

theorem Alike.isCondition {x x' : List Char} (h : Alike x x') (hx : IsCondition x)
    (hbare : ¬∀ c ∈ x, Outline.isSpacing c) : IsCondition x' := by
  obtain ⟨c, rest, rfl, hc, hrest⟩ := hx
  obtain ⟨d, rest', rfl, hd⟩ := h.exists_cons
  refine ⟨d, rest', rfl, ?_, ?_⟩
  · rcases hd with rfl | ⟨_, hd⟩
    · exact hc
    · exact isBlank_of_isSpacing hd
  · -- a single character is alike to itself and to runs of spaces only
    rintro rfl
    cases hspace : Outline.isSpacing d with
    | true => exact hbare (Alike.isSpacing (Eq.symm h) (by simpa using hspace))
    | false =>
      have hsingle := Alike.eq_of_plain (u := [d]) (Eq.symm h) (by simpa using hspace)
      exact hrest (List.cons.inj hsingle).2

theorem Alike.isHeader (h : Alike u v) (hu : IsHeader u) (hbare : ¬IsBare u) : IsHeader v := by
  refine keeps_alike.header h hu fun a x x' hcs ha hx hcondition =>
    hx.isCondition hcondition fun hspacing => hbare ⟨a, x, hcs, ha, ?_, hspacing⟩
  obtain ⟨c, rest, rfl, _⟩ := hcondition
  exact cons_ne_nil _ _

/-! ### Lines that differ in spacing -/

/-- Two lines with the same runs of spaces and tabs, of any length, apart from those at their
    ends. -/
def DiffersInSpacing (s t : String) : Prop :=
  Alike (stripChars isSpacing s.toList) (stripChars isSpacing t.toList)

theorem squeeze_blanks {w : List Char} (h : Blanks w) (inRun : Bool) :
    Blanks (squeezeFrom inRun w) := by
  intro c hc
  rcases mem_squeezeFrom hc with rfl | hc
  · decide
  · exact h c hc

theorem strip_squeeze (s : String) :
    (strip (String.ofList (squeeze s.toList))).toList = squeeze (strip s).toList := by
  obtain ⟨after, hafter, hs⟩ := exists_eq_strip s
  have hbefore : Blanks (s.toList.takeWhile isBlank) := fun c hc => mem_takeWhile_imp hc
  have hsqueeze : squeeze s.toList = squeeze (s.toList.takeWhile isBlank) ++
      (squeeze (strip s).toList ++ squeezeFrom (endsInRun (endsInRun false
        (s.toList.takeWhile isBlank)) (strip s).toList) after) := by
    conv => lhs; rw [hs]
    rw [squeeze, squeezeFrom_append, squeezeFrom_append,
      squeezeFrom_of_head fun c hc => isSpacing_of_not_isBlank ((trimmed_strip s).first c hc)]
    rfl
  rw [strip_of_blanks (by rw [String.toList_ofList]; exact hsqueeze)
      (squeeze_blanks hbefore false) (squeeze_blanks hafter _),
    strip_of_trimmed (by rw [String.toList_ofList]; exact trimmed_squeeze (trimmed_strip s)),
    String.toList_ofList]

theorem strip_spacing (s : String) :
    strip (String.ofList (stripChars isSpacing s.toList)) = strip s := by
  refine (@strip_of_blanks s (s.toList.takeWhile isSpacing) (stripChars isSpacing s.toList)
    ((s.toList.dropWhile isSpacing).reverse.takeWhile isSpacing).reverse ?_ ?_ ?_).symm
  · rw [stripChars, dropEndWhile_append, takeWhile_append_dropWhile]
  · exact fun c hc => isBlank_of_isSpacing (mem_takeWhile_imp hc)
  · exact fun c hc => isBlank_of_isSpacing (mem_takeWhile_imp (mem_reverse.mp hc))

theorem DiffersInSpacing.alike (h : DiffersInSpacing s t) :
    Alike (strip s).toList (strip t).toList := by
  rw [Alike, ← strip_spacing s, ← strip_spacing t, ← strip_squeeze, ← strip_squeeze,
    String.toList_ofList, String.toList_ofList, h]

theorem Alike.collapse (h : Alike u v) :
    collapse (String.ofList u) = collapse (String.ofList v) := by
  rw [collapse_eq, collapse_eq, ← strip_squeeze, ← strip_squeeze, String.toList_ofList,
    String.toList_ofList, h]

/-! ### Kinds of lines -/

theorem Alike.exists_append (h : Alike (u ++ v) cs) (hu : ∀ c ∈ u, Outline.isSpacing c = false) :
    ∃ v', cs = u ++ v' ∧ Alike v v' := by
  obtain ⟨u', v', rfl, hu', hv'⟩ := keeps_alike.cut h (.inl fun c hc =>
    hu c (mem_of_getLast? hc))
  exact ⟨v', by rw [hu'.eq_of_plain hu], hv'⟩

theorem Alike.isFlow (h : Alike u v) (hu : IsFlow u) : IsFlow v := by
  obtain ⟨c, w, x, rfl, hc, hw, hx⟩ := hu
  have hletters : ∀ d ∈ x, Outline.isSpacing d = false := fun d hd =>
    isSpacing_of_not_isBlank (of_isLetterLike (hx.letters (by decide) d hd)).1
  obtain ⟨rest, rfl, hrest⟩ := Alike.exists_append (u := [c, '.']) h (by
    simpa using ⟨isSpacing_of_not_isBlank (of_isLetterLike hc).1, by decide⟩)
  obtain ⟨w', x', rfl, hw', hx'⟩ := keeps_alike.cut hrest (.inr fun d hd =>
    hletters d (mem_of_head? hd))
  exact ⟨c, w', x', rfl, hc, hw'.blanks hw, by rwa [hx'.eq_of_plain hletters]⟩

theorem Alike.isSection (h : Alike u v) (hu : IsSection u) : IsSection v := by
  obtain ⟨c, rest, rfl, hc, hrest⟩ := hu
  obtain ⟨rest', rfl, hrest'⟩ := Alike.exists_append (u := [c, '.']) h (by
    simpa using ⟨isSpacing_of_not_isBlank (isBlank_of_isCapital hc), by decide⟩)
  exact ⟨c, rest', rfl, hc, keeps_alike.ne_nil hrest' hrest⟩

theorem Alike.exists_step (h : Alike (number ++ '.' :: rest) v)
    (hdigits : ∀ c ∈ number, isDigit c) :
    ∃ rest', v = number ++ '.' :: rest' ∧ Alike rest rest' := by
  have hplain : ∀ c ∈ number ++ ['.'], Outline.isSpacing c = false := by
    intro c hc
    rcases mem_append.mp hc with hc | hc
    · exact isSpacing_of_not_isBlank (isBlank_of_isDigit (hdigits c hc))
    · rw [mem_singleton.mp hc]
      decide
  obtain ⟨rest', rfl, hrest⟩ := Alike.exists_append (u := number ++ ['.']) (v := rest)
    (by rwa [append_assoc]) hplain
  exact ⟨rest', by rw [append_assoc]; rfl, hrest⟩

theorem Alike.isStep (h : Alike u v) (hu : IsStep u) : IsStep v := by
  obtain ⟨number, rest, rfl, hnumber, hdigits, hrest⟩ := hu
  obtain ⟨rest', rfl, hrest'⟩ := h.exists_step hdigits
  exact ⟨number, rest', rfl, hnumber, hdigits, keeps_alike.ne_nil hrest' hrest⟩

theorem exists_bulletLine_match? (h : Stands s (number ++ '.' :: rest)) (hnumber : number ≠ [])
    (hdigits : ∀ c ∈ number, isDigit c) (hrest : rest ≠ []) :
    ∃ m, bulletLine.match? s = some m ∧ m.group "number" = String.ofList number ∧
      collapse (m.group "rest") = collapse (String.ofList rest) := by
  obtain ⟨w, hs, hw⟩ := h.indent
  have htail : IsTail rest :=
    IsTail.of_append (u := number ++ ['.']) (by rw [append_assoc]; exact h.toIsTail)
  obtain ⟨gap, text, rfl, hgap, hne, htrimmed, hcollapse⟩ := htail.exists_trimmed hrest
  exact ⟨_, bulletLine_match? hs hw hnumber (all_eq_true.mpr hdigits) hgap hne htrimmed
    htail.of_append.onLine, rfl, hcollapse⟩

theorem normalFlowLine_step (h : Stands s (number ++ '.' :: rest)) (hnumber : number ≠ [])
    (hdigits : ∀ c ∈ number, isDigit c) (hrest : rest ≠ []) (part : Part) :
    normalFlowLine part s = normalBullet (String.ofList number) (String.ofList rest) := by
  obtain ⟨m, hm, hgroup, hcollapse⟩ := exists_bulletLine_match? h hnumber hdigits hrest
  unfold normalFlowLine
  rw [hm]
  dsimp only
  rw [hgroup, normalBullet, hcollapse]
  rfl

theorem bulletLine_match?_eq_none (h : Stands s cs) (hstep : ¬IsStep cs) :
    bulletLine.match? s = none := by
  rw [← bulletLine_fits_iff h, fits, Option.not_isSome_iff_eq_none] at hstep
  exact hstep

theorem normalFlowLine_respaced (hs : Stands s u) (ht : Stands t v) (h : Alike u v)
    (hbare : ¬IsBare u) (hcollapse : collapse s = collapse t) (hempty : s.isEmpty = t.isEmpty)
    (part : Part) : normalFlowLine part s = normalFlowLine part t := by
  have hsymm : Alike v u := Eq.symm h
  by_cases hstep : IsStep u
  · obtain ⟨number, rest, rfl, hnumber, hdigits, hrest⟩ := hstep
    obtain ⟨rest', rfl, hrest'⟩ := h.exists_step hdigits
    rw [normalFlowLine_step hs hnumber hdigits hrest,
      normalFlowLine_step ht hnumber hdigits (keeps_alike.ne_nil hrest' hrest), normalBullet,
      hrest'.collapse]
    rfl
  · have hchoose : chooseLine.fits s = chooseLine.fits t := by
      rw [Bool.eq_iff_iff, chooseLine_fits_iff hs, chooseLine_fits_iff ht]
      exact ⟨fun hu => keeps_alike.spells h hu (by decide),
        fun hv => keeps_alike.spells hsymm hv (by decide)⟩
    have hheader : (clauseLine.fits s || loopLine.fits s)
        = (clauseLine.fits t || loopLine.fits t) := by
      rw [Bool.eq_iff_iff, isHeader_iff hs, isHeader_iff ht]
      exact ⟨fun hu => h.isHeader hu hbare,
        fun hv => hsymm.isHeader hv fun hv => hbare (hsymm.isBare hv)⟩
    unfold normalFlowLine
    rw [bulletLine_match?_eq_none hs hstep,
      bulletLine_match?_eq_none ht fun hv => hstep (hsymm.isStep hv)]
    rw [hchoose, hheader, hempty, normalHeader, normalHeader, hcollapse]

theorem normalLine_respaced (hs : ∀ c ∈ s.toList, Pattern.onLine c)
    (ht : ∀ c ∈ t.toList, Pattern.onLine c) (h : DiffersInSpacing s t)
    (hopens : opensSet s = false) (hbare : ¬IsBare (strip s).toList) (hpart : part ≠ .outside) :
    normalLine part s = normalLine part t := by
  have hu := stands_stripEnd hs
  have hv := stands_stripEnd ht
  have hopens' : opensSet t = false := by
    rw [opensSet, or_eq_false_iff, ← not_eq_true, ← not_eq_true,
      flowLine_fits_iff hu, sectionLine_fits_iff hu] at hopens
    rw [opensSet, or_eq_false_iff, ← not_eq_true, ← not_eq_true,
      flowLine_fits_iff hv, sectionLine_fits_iff hv]
    have hsymm : Alike (strip t).toList (strip s).toList := Eq.symm h.alike
    exact ⟨fun ht => hopens.1 (hsymm.isFlow ht), fun ht => hopens.2 (hsymm.isSection ht)⟩
  rw [normalLine_inside hopens hpart, normalLine_inside hopens' hpart]
  refine normalFlowLine_respaced hu hv h.alike hbare ?_ ?_ part
  · rw [collapse_eq, collapse_eq, strip_stripEnd, strip_stripEnd, h.alike]
  · rw [isEmpty_stripEnd, isEmpty_stripEnd, Bool.eq_iff_iff, List.isEmpty_iff, List.isEmpty_iff]
    exact ⟨fun hnil => squeeze_eq_nil (by rw [← h.alike, hnil]; rfl),
      fun hnil => squeeze_eq_nil (by rw [h.alike, hnil]; rfl)⟩

/-! ### Outlines that differ in spacing -/

/-- Two outlines, from a part on, whose lines are the same outside the flow and differ in their
    spacing inside, where none is a header with a bare condition. A last line of spaces may
    be there or not. -/
inductive Respaced : Part → List String → List String → Prop where
  | nil (part : Part) : Respaced part [] []
  | same {part : Part} {s : String} {ls ms : List String}
      (hrest : Respaced (normalLine part s).2 ls ms) : Respaced part (s :: ls) (s :: ms)
  | inside {part : Part} {s t : String} {ls ms : List String} (hpart : part ≠ .outside)
      (hopens : opensSet s = false) (hbare : ¬IsBare (strip s).toList) (h : DiffersInSpacing s t)
      (hrest : Respaced (normalLine part s).2 ls ms) : Respaced part (s :: ls) (t :: ms)
  | fewer {part : Part} {s : String} (hpart : part ≠ .outside)
      (hs : ∀ c ∈ s.toList, isSpacing c) : Respaced part [s] []
  | more {part : Part} {s : String} (hpart : part ≠ .outside)
      (hs : ∀ c ∈ s.toList, isSpacing c) : Respaced part [] [s]

theorem rdropWhile_append_congr {α : Type} {p : α → Bool} {l m : List α}
    (h : l.rdropWhile p = m.rdropWhile p) (k : List α) :
    (k ++ l).rdropWhile p = (k ++ m).rdropWhile p := by
  have hdrop : ∀ l : List α, (k ++ l).rdropWhile p = (k ++ l.rdropWhile p).rdropWhile p := by
    intro l
    induction l using reverseRecOn with
    | nil => rfl
    | append_singleton l a ih =>
      cases ha : p a with
      | true =>
        rw [← append_assoc, rdropWhile_concat_pos _ _ _ ha, rdropWhile_concat_pos _ _ _ ha, ih]
      | false => rw [rdropWhile_concat_neg _ l a (by simp [ha])]
  rw [hdrop l, hdrop m, h]

theorem normalLine_spaces (hpart : part ≠ .outside) (hs : ∀ c ∈ s.toList, isSpacing c) :
    (normalLine part s).1 = [""] := by
  have hstrip : strip s = "" := by
    refine (@strip_of_blanks s s.toList [] [] ?_ ?_ ?_).trans rfl
    · rw [append_nil, append_nil]
    · exact fun c hc => isBlank_of_isSpacing (hs c hc)
    · exact forall_mem_nil _
  have hend : stripEnd s = "" :=
    String.toList_eq_nil_iff.mp (toList_stripEnd_of_nil (by rw [hstrip]; rfl))
  unfold normalLine
  rw [hend]
  cases part with
  | outside => exact absurd rfl hpart
  | flow => rfl
  | body => rfl

theorem normalLinesFrom_respaced {ls ms : List String} (h : Respaced part ls ms)
    (hls : ∀ s ∈ ls, ∀ c ∈ s.toList, Pattern.onLine c)
    (hms : ∀ s ∈ ms, ∀ c ∈ s.toList, Pattern.onLine c) :
    (normalLinesFrom part ls).rdropWhile String.isEmpty
      = (normalLinesFrom part ms).rdropWhile String.isEmpty := by
  induction h with
  | nil => rfl
  | same _ ih =>
    rw [forall_mem_cons] at hls hms
    rw [normalLinesFrom_cons, normalLinesFrom_cons]
    exact rdropWhile_append_congr (ih hls.2 hms.2) _
  | inside hpart hopens hbare hst _ ih =>
    rw [forall_mem_cons] at hls hms
    rw [normalLinesFrom_cons, normalLinesFrom_cons,
      ← normalLine_respaced hls.1 hms.1 hst hopens hbare hpart]
    exact rdropWhile_append_congr (ih hls.2 hms.2) _
  | fewer hpart hs | more hpart hs =>
    rw [normalLinesFrom_cons, normalLine_spaces hpart hs]
    rfl

/-- **Spacing in the flow does not reach the hash.** Outlines that differ in the spacing of
    the lines of their flows have the same normal form, if none of these lines is a header
    with a bare condition. -/
theorem normalOutline_respaced {t₁ t₂ : String} (h : Respaced .outside (lines t₁) (lines t₂)) :
    normalOutline t₁ = normalOutline t₂ := by
  rw [normalOutline, normalOutline, normalLines_eq, normalLines_eq]
  rw [normalLinesFrom_respaced h (fun _ hs => onLine_of_mem_lines hs)
    fun _ hs => onLine_of_mem_lines hs]

theorem not_isBare (h : cs.dropLast.getLast?.all (!isSpacing ·)) : ¬IsBare cs := by
  rintro ⟨a, x, rfl, _, hne, hx⟩
  rw [← append_assoc, dropLast_concat, getLast?_append_of_ne_nil _ hne,
    getLast?_eq_some_getLast hne] at h
  simp [hx _ (getLast_mem hne)] at h

/-- A header with other spaces in it and around it. -/
theorem normalOutline_respaced_when :
    normalOutline "D. Flow\n when  x:\n" = normalOutline "D. Flow\nwhen \tx:  \n  " := by
  have hlines : lines "D. Flow\n when  x:\n" = ["D. Flow", " when  x:"] := by decide +kernel
  have hlines' : lines "D. Flow\nwhen \tx:  \n  " = ["D. Flow", "when \tx:  ", "  "] := by
    decide +kernel
  have hflow : normalLine .outside "D. Flow" = (["D. Flow"], .flow) :=
    normalLine_flow (by decide +kernel) .outside
  have hopens : opensSet " when  x:" = false := by decide +kernel
  have hspacing : DiffersInSpacing " when  x:" "when \tx:  " := by
    unfold DiffersInSpacing Alike
    decide +kernel
  have hinside : Part.flow ≠ .outside := by rintro ⟨⟩
  have hpart : (normalLine .flow " when  x:").2 ≠ .outside := by
    rw [normalLine_inside hopens hinside]
    exact (isInner_normalFlowLine hinside _).2
  refine normalOutline_respaced ?_
  rw [hlines, hlines']
  refine .same ?_
  rw [hflow]
  exact .inside hinside hopens (not_isBare (by decide +kernel)) hspacing
    (.more hpart (List.all_eq_true.mp (by decide)))

end Loom.Outline
