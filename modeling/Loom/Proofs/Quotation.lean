import Loom.Proofs.Comparand
import Loom.Proofs.Sentence

/-!
# Quoted Texts

A line of an agent is cut into actions before anything else is read, and the cut knows nothing of
quotes. A text in quotes is kept as it stands where no two actions seem to meet on the line;
where they do, the line falls apart. The closing quote is never lost: no action ends in it.
-/

open String (toList_ofList ofList)

namespace Loom.Text.Pattern

open List

variable {p : Pattern} {d : Char}

/-- A pattern that cannot pass a character. -/
def avoids (d : Char) : Pattern → Bool
  | one accepts | many accepts | few accepts => !accepts d
  | seq p q | alt p q => p.avoids d && q.avoids d
  | named _ p => p.avoids d
  | repeated _ => false
  | _ => true

theorem exists_passed_of_fits (hp : p.avoids d) {here next : Place} {gs gs' : Groups}
    (h : p.Fits here gs next gs') : ∃ w, here.rest = w ++ next.rest ∧ d ∉ w := by
  have hrun {accepts : Char → Bool} {w : List Char} (hd : (!accepts d) = true)
      (hw : ∀ c ∈ w, accepts c = true) : d ∉ w := fun hmem => by
    rw [hw d hmem] at hd
    cases hd
  induction p generalizing here gs next gs' with
  | one accepts =>
    obtain ⟨c, hc, hrest, _⟩ := h
    exact ⟨[c], hrest, hrun hp (forall_mem_singleton.mpr hc)⟩
  | seq p q ihp ihq =>
    obtain ⟨hp, hq⟩ := Bool.and_eq_true_iff.mp hp
    obtain ⟨mid, _, hfirst, hsecond⟩ := h
    obtain ⟨w, hw, hd⟩ := ihp hp hfirst
    obtain ⟨w', hw', hd'⟩ := ihq hq hsecond
    refine ⟨w ++ w', by rw [hw, hw', append_assoc], fun hmem => ?_⟩
    exact (mem_append.mp hmem).elim hd hd'
  | alt p q ihp ihq =>
    obtain ⟨hp, hq⟩ := Bool.and_eq_true_iff.mp hp
    exact h.elim (ihp hp) (ihq hq)
  | many accepts | few accepts =>
    obtain ⟨w, hw, hrest, _⟩ := h
    exact ⟨w, hrest, hrun hp hw⟩
  | repeated => cases hp
  | named name p ih =>
    obtain ⟨_, h, _⟩ := h
    exact ih hp h
  | nothing => exact ⟨[], by rw [h.1]; rfl, not_mem_nil⟩
  | start | finish | ended | edge => exact ⟨[], by rw [h.2.1]; rfl, not_mem_nil⟩

theorem splitFrom_of_searchFrom {before cs : List Char} (h : p.searchFrom before cs = none)
    (piece : List Char) : p.splitFrom piece before.head? 0 cs = [piece.reverse ++ cs] := by
  induction cs generalizing before piece with
  | nil => rw [Pattern.splitFrom, append_nil]
  | cons c cs ih =>
    rw [searchFrom] at h
    rw [Pattern.splitFrom]
    cases hm : p.matchAt ⟨before.head?, c :: cs⟩ with
    | some m => rw [hm] at h; cases h
    | none =>
      rw [hm] at h
      exact (ih h (c :: piece)).trans (by simp)

end Loom.Text.Pattern

namespace Loom.Agent

open Loom.Text Loom.Text.Pattern List

variable {c : Char} {s text : List Char} {line : String}

/-! ### Cutting a line that ends with a quote -/

theorem actionEnd_matchAt_of_ne (hc : c ≠ ',') (before : Option Char) (cs : List Char) :
    actionEnd.matchAt ⟨before, c :: cs⟩ = none := by
  have hcomma : (c == ',') = false := beq_false_of_ne hc
  exact (congrArg (fun b => if b = true then _ else none) hcomma).trans rfl

/-- The end of an action passes something and does not reach a quote. -/
theorem length_of_match {m : Match} {before : Option Char}
    (h : actionEnd.matchAt ⟨before, s ++ ['"']⟩ = some m) :
    0 < m.text.length ∧ m.text.length ≤ s.length := by
  obtain ⟨next, gs, hfits, hm⟩ := fits_of_run actionEnd h
  have hrest : next.rest ≠ [] := by
    obtain ⟨w, hw, hquote⟩ := exists_passed_of_fits (d := '"') (by decide) hfits
    intro hnil
    rw [hnil, append_nil] at hw
    exact hquote (hw ▸ mem_append_right s (mem_singleton_self _))
  obtain ⟨mid, _, hthen, place, _, ⟨b, _, hb, _⟩, w', _, hw', _⟩ := hfits
  obtain ⟨w, hw, _⟩ := exists_passed_of_fits (d := '"') (by decide) hthen
  have hlength := congrArg length hw
  have hpos := length_pos_of_ne_nil hrest
  rw [hb, hw'] at hlength
  rw [← Option.some_inj.mp hm]
  simp only [length_append, length_cons, length_nil, length_take] at hlength ⊢
  omega

theorem exists_piece_of_quote (s piece : List Char) (before : Option Char) {skip : Nat}
    (hskip : skip ≤ s.length) :
    ∃ x ∈ actionEnd.splitFrom piece before skip (s ++ ['"']), '"' ∈ x := by
  -- what is still to be skipped never reaches the quote, so the quote is put in some piece
  induction s generalizing piece before skip with
  | nil =>
    obtain rfl : skip = 0 := Nat.le_zero.mp hskip
    rw [nil_append, Pattern.splitFrom, actionEnd_matchAt_of_ne (by decide)]
    exact ⟨_, mem_singleton_self _, by simp⟩
  | cons c s ih =>
    cases skip with
    | succ k => exact ih piece (some c) (Nat.le_of_succ_le_succ hskip)
    | zero =>
      rw [cons_append, Pattern.splitFrom]
      cases hm : actionEnd.matchAt ⟨before, c :: (s ++ ['"'])⟩ with
      | none => exact ih _ _ (Nat.zero_le _)
      | some m =>
        have hle := (length_of_match (s := c :: s) hm).2
        cases htext : m.text with
        | nil => simpa [htext] using ih (c :: piece) (some c) (Nat.zero_le _)
        | cons d more =>
          rw [htext] at hle
          obtain ⟨x, hx, hquote⟩ := ih [] (some c) (Nat.le_of_succ_le_succ hle)
          exact ⟨x, by simp [htext, hx], hquote⟩

theorem exists_pieces_of_searchFrom {before : List Char}
    (h : actionEnd.searchFrom before (s ++ ['"']) ≠ none) (piece : List Char) :
    ∃ u pieces, actionEnd.splitFrom piece before.head? 0 (s ++ ['"']) =
      (piece.reverse ++ u) :: pieces ∧ ∃ x ∈ pieces, '"' ∈ x := by
  induction s generalizing before piece with
  | nil => exact absurd (by rw [nil_append, searchFrom, actionEnd_matchAt_of_ne (by decide)]; rfl) h
  | cons c s ih =>
    rw [cons_append, searchFrom] at h
    rw [cons_append, Pattern.splitFrom]
    cases hm : actionEnd.matchAt ⟨before.head?, c :: (s ++ ['"'])⟩ with
    | none =>
      rw [hm] at h
      obtain ⟨u, pieces, hsplit, hx⟩ := ih h (c :: piece)
      exact ⟨c :: u, pieces, by simpa using hsplit, hx⟩
    | some m =>
      obtain ⟨hpos, hle⟩ := length_of_match (s := c :: s) hm
      cases htext : m.text with
      | nil => simp [htext] at hpos
      | cons d more =>
        rw [htext] at hle
        refine ⟨[], _, by simp [htext]; rfl, ?_⟩
        exact exists_piece_of_quote s [] (some c) (Nat.le_of_succ_le_succ hle)

/-! ### Actions -/

theorem isCondition_of_head (hc : c = 'r' ∨ c = 'm') (h : line.toList.head? = some c) :
    isCondition line = false := by
  obtain ⟨cs, hcs⟩ := head?_eq_some_iff.mp h
  refine Bool.eq_false_iff.mpr fun hfits => ?_
  rw [isCondition, fits, match?, hcs] at hfits
  rcases hc with rfl | rfl <;> exact absurd hfits Bool.false_ne_true

theorem compileActions_ne_nil {comparatives : Bool} {lines : List String} (h : lines ≠ []) :
    compileActions comparatives lines ≠ .ok [] := by
  intro hnil
  obtain ⟨line, rest, rfl⟩ := exists_cons_of_ne_nil h
  have hcons {x : Value} {c : Except Error (List Value)} :
      (do pure (x :: (← c)) : Except Error (List Value)) ≠ .ok [] := by
    cases c <;> (intro h; cases h)
  rw [compileActions.eq_def] at hnil
  dsimp only at hnil
  split at hnil
  · obtain ⟨r, _, hnil⟩ := of_bind_ok hnil
    split at hnil
    · exact hcons hnil
    · split at hnil
      · cases hnil
      · split at hnil
        · obtain ⟨_, _, hnil⟩ := of_bind_ok hnil
          exact hcons hnil
        · exact hcons hnil
  · obtain ⟨_, _, hnil⟩ := of_bind_ok hnil
    exact hcons hnil

theorem mem_strip {x : String} (h : c ∈ x.toList) (hc : isBlank c = false) :
    c ∈ (strip x).toList := by
  obtain ⟨after, hafter, hx⟩ := Outline.exists_eq_strip x
  have hblank (h : isBlank c) : False := by
    rw [hc] at h
    cases h
  rw [hx, mem_append, mem_append] at h
  rcases h with h | h | h
  · exact (hblank (mem_takeWhile_imp h)).elim
  · exact h
  · exact (hblank (hafter c h)).elim

theorem head_strip {x : String} (h : x.toList.head? = some c) (hc : isBlank c = false) :
    (strip x).toList.head? = some c := by
  obtain ⟨cs, hcs⟩ := head?_eq_some_iff.mp h
  have hdrop : x.toList.dropWhile isBlank = [c] ++ cs := by
    rw [hcs, dropWhile_cons_of_neg (by simp [hc])]
    rfl
  have hlast : ∀ d, [c].getLast? = some d → isBlank d = false := by
    rintro d ⟨⟩
    exact hc
  rw [strip, stripWhere, stripChars, hdrop, dropEndWhile_append_of_last hlast, toList_ofList]
  rfl

/-- A line that starts like a return or an assignment and ends with a quote. -/
structure Quotes (line : String) (s : List Char) : Prop where
  chars : line.toList = s ++ ['"']
  first : s.head? = some 'r' ∨ s.head? = some 'm'

namespace Quotes

theorem exists_head (h : Quotes line s) : ∃ c cs, (c = 'r' ∨ c = 'm') ∧ isBlank c = false ∧
    c ≠ ',' ∧ line.toList = c :: (cs ++ ['"']) := by
  obtain ⟨c, hc, hhead⟩ : ∃ c, (c = 'r' ∨ c = 'm') ∧ s.head? = some c :=
    h.first.elim (⟨_, .inl rfl, ·⟩) (⟨_, .inr rfl, ·⟩)
  obtain ⟨cs, rfl⟩ := head?_eq_some_iff.mp hhead
  refine ⟨c, cs, hc, ?_, ?_, h.chars⟩ <;> rcases hc with rfl | rfl <;> decide

theorem strip_eq (h : Quotes line s) : strip line = line := by
  obtain ⟨c, cs, _, hblank, _, hchars⟩ := h.exists_head
  refine strip_of_trimmed ⟨fun d hd => ?_, fun d hd => ?_⟩
  · rw [hchars] at hd
    cases hd
    exact hblank
  · rw [h.chars, getLast?_concat] at hd
    cases hd
    decide

theorem isEmpty_eq (h : Quotes line s) : line.isEmpty = false := by
  obtain ⟨_, _, _, _, _, hchars⟩ := h.exists_head
  rw [← Bool.not_eq_true, String.isEmpty_iff]
  rintro rfl
  cases hchars

theorem isCondition_eq (h : Quotes line s) : isCondition line = false := by
  obtain ⟨_, _, hc, _, _, hchars⟩ := h.exists_head
  exact isCondition_of_head hc (by rw [hchars]; rfl)

theorem actionsOf_eq (h : Quotes line s) : actionsOf line =
    (((actionEnd.splitFrom [] none 0 line.toList).map ofList).map strip).filter
      (!·.isEmpty) := by
  rw [actionsOf, h.strip_eq, h.isEmpty_eq, h.isCondition_eq]
  rfl

theorem actionsOf_of_not_occurs (h : Quotes line s)
    (hnone : actionEnd.searchFrom [] line.toList = none) : actionsOf line = [line] := by
  have hsplit := splitFrom_of_searchFrom hnone []
  rw [h.actionsOf_eq, show none = ([] : List Char).head? from rfl, hsplit]
  change [strip (ofList line.toList)].filter _ = _
  rw [String.ofList_toList, h.strip_eq, filter_singleton, h.isEmpty_eq]
  rfl

theorem exists_actions_of_occurs (h : Quotes line s)
    (hsome : actionEnd.searchFrom [] line.toList ≠ none) :
    ∃ a as, actionsOf line = a :: as ∧ as ≠ [] ∧ isCondition a = false := by
  obtain ⟨c, cs, hc, hblank, hcomma, hchars⟩ := h.exists_head
  rw [hchars, searchFrom, actionEnd_matchAt_of_ne hcomma] at hsome
  obtain ⟨u, pieces, heq, x, hx, hquote⟩ := exists_pieces_of_searchFrom hsome [c]
  have hnonempty {y : String} {d : Char} (hd : d ∈ (strip y).toList) :
      (!(strip y).isEmpty) = true := by
    rw [Bool.not_eq_true', ← Bool.not_eq_true, String.isEmpty_iff]
    intro hnil
    rw [hnil] at hd
    cases hd
  have hfirst : (strip (ofList (c :: u))).toList.head? = some c :=
    head_strip (by rw [toList_ofList]; rfl) hblank
  refine ⟨strip (ofList (c :: u)),
    ((pieces.map ofList).map strip).filter (!·.isEmpty), ?_, ?_,
    isCondition_of_head hc hfirst⟩
  · rw [h.actionsOf_eq, hchars, Pattern.splitFrom, actionEnd_matchAt_of_ne hcomma]
    refine (congrArg
      (fun ps => ((ps.map ofList).map strip).filter (!·.isEmpty)) heq).trans ?_
    exact filter_cons_of_pos (hnonempty (mem_of_mem_head? hfirst))
  · -- the piece with the closing quote is not blank, so it is an action of its own
    refine ne_nil_of_mem (mem_filter.mpr ⟨mem_map_of_mem (mem_map_of_mem hx), ?_⟩)
    exact hnonempty (mem_strip (by rwa [toList_ofList]) (by decide))

/-- The line is compiled as one action if and only if no action ends on it. -/
theorem compileFlow_eq_iff (h : Quotes line s) {x : Value} (hx : plainAction line = .ok x)
    (comparatives : Bool) :
    compileFlow comparatives [.str line] = .ok [x] ↔ actionEnd.occurs line = false := by
  have hactions : actions [.str line] = .ok (actionsOf line ++ []) := rfl
  have hflow : compileFlow comparatives [.str line] =
      compileActions comparatives (actionsOf line) := by
    rw [compileFlow, hactions, append_nil]
    rfl
  have hoccurs : actionEnd.occurs line = false ↔ actionEnd.searchFrom [] line.toList = none := by
    rw [occurs, search?, Option.isSome_map, Option.isSome_eq_false_iff, Option.isNone_iff_eq_none]
  rw [hflow, hoccurs]
  constructor
  · -- each action gives a step, and a cut line has at least two
    intro hflow
    by_contra hsome
    obtain ⟨a, as, has, hne, hcondition⟩ := h.exists_actions_of_occurs hsome
    rw [has, compileActions.eq_def] at hflow
    dsimp only at hflow
    rw [hcondition, if_neg Bool.false_ne_true] at hflow
    obtain ⟨_, _, hflow⟩ := of_bind_ok hflow
    obtain ⟨rest, hrest, hflow⟩ := of_bind_ok hflow
    obtain ⟨_, rfl⟩ := List.cons.inj (Except.ok.inj hflow)
    exact compileActions_ne_nil hne hrest
  · intro hnone
    rw [h.actionsOf_of_not_occurs hnone, compileActions.eq_def]
    dsimp only
    rw [h.isCondition_eq, if_neg Bool.false_ne_true, hx]
    rfl

end Quotes

/-! ### Returns and assignments -/

theorem readTerm_quoted (text : List Char) :
    readTerm (ofList ('"' :: (text ++ ['"']))) = .ok (textExpr (ofList text)) := by
  have hquoted : isQuoted (ofList ('"' :: (text ++ ['"']))) := by
    simp [isQuoted, startsWith, endsWith, dropStart?]
  have hinside : inside (ofList ('"' :: (text ++ ['"']))) = ofList text := by
    simp [inside]
  have hstrip : strip (ofList ('"' :: (text ++ ['"']))) = _ := strip_of_trimmed <| by
    rw [toList_ofList, ← cons_append]
    refine ⟨fun c hc => ?_, fun c hc => ?_⟩
    · cases hc
      decide
    · rw [getLast?_concat] at hc
      cases hc
      decide
  rw [readTerm, hstrip, hquoted, hinside]
  rfl

theorem reads_quoted (hline : ∀ c ∈ text, onLine c) (before : Option Char) (gs : Groups) :
    (space ++ (named "value" (few1 onLine) ++ (gap ++ finish))).Reads
      ⟨before, ' ' :: '"' :: (text ++ ['"'])⟩ gs ⟨some '"', []⟩
      (("value", '"' :: (text ++ ['"'])) :: gs) := by
  have hspace := @reads_many1 isBlank ' ' [] ('"' :: (text ++ ['"'])) (by decide)
    (forall_mem_nil _) (fun c hc => by cases hc; decide) before gs
  have hrest := Outline.reads_restOfLine (cons_ne_nil '"' (text ++ ['"'])) (fun c hc => by
      rcases mem_cons.mp hc with rfl | hc
      · decide
      · rcases mem_append.mp hc with hc | hc
        · exact hline c hc
        · rw [mem_singleton.mp hc]
          decide) (fun c hc => by
      rw [← cons_append, getLast?_concat] at hc
      cases hc
      decide) "value" (some ' ') gs
  have hlast : lastOf (some ' ') ('"' :: (text ++ ['"'])) = some '"' := by
    rw [lastOf, ← cons_append, getLast?_concat]
    rfl
  rw [hlast] at hrest
  exact hspace.seq hrest

theorem plainAction_return (hline : ∀ c ∈ text, onLine c)
    (hchars : line.toList = "return".toList ++ ' ' :: '"' :: (text ++ ['"'])) :
    plainAction line = .ok (returnStep (textExpr (ofList text))) := by
  have hmake : makeLine.match? line = none := by
    rw [match?, hchars]
    rfl
  have hword : (gap ++ word "return").Reads
      ⟨none, "return".toList ++ ' ' :: '"' :: (text ++ ['"'])⟩ [] ⟨some 'n', _⟩ [] :=
    fun _ _ _ => rfl
  have hread := hword.seq (reads_quoted hline (some 'n') [])
  rw [← hchars] at hread
  have hmatch := match?_of_reads (p := returnLine) hread
  rw [plainAction, hmake, hmatch]
  dsimp only
  change (do pure (returnStep (← readTerm (ofList ('"' :: (text ++ ['"'])))))) = _
  rw [readTerm_quoted]
  rfl

theorem plainAction_make {name : String} (hname : Flow.isName name)
    (hline : ∀ c ∈ text, onLine c)
    (hchars : line.toList = "make".toList ++ ' ' :: (name.toList ++
      (' ' :: "say".toList ++ ' ' :: '"' :: (text ++ ['"'])))) :
    plainAction line = .ok (.obj [("verb", .str "Make"), ("args", .obj [("var", .str name),
      ("expr", textExpr (ofList text))])]) := by
  have hword : (gap ++ word "make").Reads ⟨none, "make".toList ++ ' ' :: (name.toList ++
      (' ' :: "say".toList ++ ' ' :: '"' :: (text ++ ['"'])))⟩ [] ⟨some 'e', _⟩ [] :=
    fun _ _ _ => rfl
  have hspace := hword.seq (@reads_many1 isBlank ' ' [] (name.toList ++ _) (by decide)
    (forall_mem_nil _) (fun c hc => by
      obtain ⟨d, ds, hds, _, hchars⟩ := Flow.exists_of_isName hname
      rw [hds] at hc
      cases hc
      exact Flow.isBlank_of_isNameChar (hchars c mem_cons_self)) _ _)
  have hnamed := hspace.seq (reads_named (Flow.reads_nameText hname (fun c hc => by
    cases hc
    decide) _ _) rfl "name")
  have hsay := hnamed.seq (((@reads_many1 isBlank ' ' [] ("say".toList ++ _) (by decide)
    (forall_mem_nil _) (fun c hc => by cases hc; decide) _ _)).seq
    (show (word "say").Reads ⟨some ' ', "say".toList ++ _⟩ _ ⟨some 'y', _⟩ _ from fun _ _ _ => rfl))
  have hread := hsay.seq (reads_quoted hline (some 'y') _)
  rw [← hchars] at hread
  have hmatch := match?_of_reads (p := makeLine) hread
  rw [plainAction, hmatch]
  change (do pure (Value.obj [("verb", .str "Make"), ("args", .obj
    [("var", .str (ofList name.toList)),
      ("expr", ← readTerm (ofList ('"' :: (text ++ ['"']))))])])) = _
  rw [readTerm_quoted, String.ofList_toList]
  rfl

/-- A text in quotes is returned, or given to a variable, as it stands, if and only if the line does
    not hold the words between two actions. -/
theorem quoted_text_kept_iff {text name : String} (hline : '\n' ∉ text.toList)
    (hname : Flow.isName name = true) (comparatives : Bool) :
    (compileFlow comparatives [.str ("return \"" ++ text ++ "\"")] =
        .ok [returnStep (textExpr text)] ↔ actionEnd.occurs ("return \"" ++ text ++ "\"") = false) ∧
    (compileFlow comparatives [.str ("make " ++ name ++ " say \"" ++ text ++ "\"")] =
        .ok [.obj [("verb", .str "Make"), ("args", .obj [("var", .str name),
          ("expr", textExpr text)])]] ↔
      actionEnd.occurs ("make " ++ name ++ " say \"" ++ text ++ "\"") = false) := by
  have honLine : ∀ c ∈ text.toList, onLine c = true := fun c hc => by
    rw [onLine, bne_iff_ne]
    rintro rfl
    exact hline hc
  have hreturn := @plainAction_return text.toList ("return \"" ++ text ++ "\"") honLine (by simp)
  have hmake := @plainAction_make text.toList ("make " ++ name ++ " say \"" ++ text ++ "\"") name
    hname honLine (by simp)
  rw [String.ofList_toList] at hreturn hmake
  have hquotes : Quotes ("return \"" ++ text ++ "\"") ("return \"" ++ text).toList :=
    ⟨by simp, .inl (by simp)⟩
  have hquotes' : Quotes ("make " ++ name ++ " say \"" ++ text ++ "\"")
      ("make " ++ name ++ " say \"" ++ text).toList := ⟨by simp, .inr (by simp)⟩
  exact ⟨hquotes.compileFlow_eq_iff hreturn comparatives,
    hquotes'.compileFlow_eq_iff hmake comparatives⟩

theorem quoted_text_kept_iff_greeting :
    compileFlow true [.str ("return \"" ++ "hi, then bye" ++ "\"")] ≠
        .ok [returnStep (textExpr "hi, then bye")] ∧
      compileFlow true [.str ("make " ++ "x" ++ " say \"" ++ "hi, bye" ++ "\"")] =
        .ok [.obj [("verb", .str "Make"), ("args", .obj [("var", .str "x"),
          ("expr", textExpr "hi, bye")])]] := by
  refine ⟨fun h => ?_, (quoted_text_kept_iff (by decide) (by decide) true).2.mpr
    (by decide +kernel)⟩
  have hkept := (@quoted_text_kept_iff _ "x" (by decide) (by decide) true).1.mp h
  exact absurd hkept (by decide +kernel)

end Loom.Agent
